import RecordFilter.Proofs.Calendar.Apart

/-!
# What a written time means

The notations of a date or a time are tried one after the other, but the order does not matter: a
text that can be read in several notations means the same in all of them. A date-time of RFC 3339
fits one of the patterns with blanks, or one with its own marks, and patterns are apart. So no text
is a date-time and a date alone, or a time of day and a date-time.
-/

namespace RecordFilter.Calendar

open Text

/-- One of the notations reads the text so, blanks around it aside. -/
def HasReading {α : Type} (readers : List (Reader α)) (text : String) (a : α) : Prop :=
  ∃ r ∈ readers, r (Text.trim text.toList) = some a

/-- The date-times of RFC 3339 as patterns, one for each way to begin the time and the zone. -/
def rfc3339Patterns : List Pattern :=
  [.literal 'T', .literal 't', .blanks].flatMap fun between =>
    [.offset, .literal 'Z', .literal 'z'].map fun zone =>
      yearMonthDay '-' ++ between :: hourMinuteSecond ++ [zone]

def instantPatterns : List Pattern := rfc3339Patterns ++ utcPatterns

section
variable {cs rest : List Char} {f f' : Fields} {p q : Pattern}

/-- An offset with a colon is read alike where any colons and blanks may stand. -/
theorem readOffset?_of_colon {seconds : Int}
    (h : readOffset? (readOneOf? [':']) cs = some (seconds, rest)) :
    readOffset? (fun cs => some (skipColons cs)) (trimStart cs) = some (seconds, rest) := by
  obtain ⟨⟨negative, cs₁⟩, hSign, h⟩ := Option.bind_eq_some_iff.mp h
  obtain ⟨⟨hours, cs₂⟩, hHours, h⟩ := Option.bind_eq_some_iff.mp h
  obtain ⟨cs₃, hColon, h⟩ := Option.bind_eq_some_iff.mp h
  obtain ⟨⟨minutes, cs₄⟩, hMinutes, h⟩ := Option.bind_eq_some_iff.mp h
  have hTrim : trimStart cs = cs := by
    unfold readSign? at hSign
    split at hSign
    case h_4 => cases hSign
    all_goals exact trimStart_cons (by decide) _
  have hSkip : skipColons cs₂ = cs₃ := by
    obtain rfl := eq_cons_of_readOneOf? hColon
    obtain ⟨ds, hWrites, rfl⟩ :=
      exists_writes_of_readDigits? (readDigits?_of_readFixedDigits? (by decide) hMinutes)
    exact skipColons_append hWrites
  simp only [readOffset?, hTrim, hSign, hHours, hSkip, hMinutes, Option.bind_eq_bind,
    Option.bind_some]
  exact h

theorem exists_zone_of_readZone? {seconds : Int} (h : readZone? cs = some (seconds, rest)) :
    ∃ zone ∈ [Item.offset, .literal 'Z', .literal 'z'], ∀ f : Fields, f.offset = 0 →
      zone.read? cs f = some (rest, { f with offset := seconds }) := by
  unfold readZone? at h
  split at h
  · rename_i hZulu
    cases h
    obtain ⟨c, hc, rfl⟩ := exists_of_readOneOf? hZulu
    refine ⟨.literal c, ?_, fun f hOffset => ?_⟩
    · simp at hc ⊢
      exact hc
    · rw [← hOffset]
      exact if_pos rfl
  · obtain ⟨hRead, -⟩ := Option.filter_eq_some_iff.mp h
    refine ⟨.offset, List.mem_cons_self, fun f _ => ?_⟩
    rw [Item.read?, readOffset?_of_colon hRead]
    rfl

theorem exists_between_of_readOneOf? (h : readOneOf? ['T', 't', ' '] cs = some rest)
    (hRest : trimStart rest = rest) :
    ∃ between ∈ [Item.literal 'T', .literal 't', .blanks], ∀ f,
      between.read? cs f = some (rest, f) := by
  obtain ⟨c, hc, rfl⟩ := exists_of_readOneOf? h
  simp only [List.mem_cons, List.not_mem_nil, or_false] at hc
  rcases hc with rfl | rfl | rfl
  · exact ⟨.literal 'T', by decide, fun _ => rfl⟩
  · exact ⟨.literal 't', by decide, fun _ => rfl⟩
  · refine ⟨.blanks, by decide, fun f => ?_⟩
    change some (trimStart rest, f) = _
    rw [hRest]

theorem exists_pattern_of_readRfc3339? (h : readRfc3339? cs = some f) :
    ∃ p ∈ rfc3339Patterns, p.read? cs = some f := by
  obtain ⟨⟨year, cs₁⟩, hYear, h⟩ := Option.bind_eq_some_iff.mp h
  obtain ⟨cs₂, hDash, h⟩ := Option.bind_eq_some_iff.mp h
  obtain ⟨⟨month, cs₃⟩, hMonth, h⟩ := Option.bind_eq_some_iff.mp h
  obtain ⟨cs₄, hDash', h⟩ := Option.bind_eq_some_iff.mp h
  obtain ⟨⟨day, cs₅⟩, hDay, h⟩ := Option.bind_eq_some_iff.mp h
  obtain ⟨cs₆, hBetween, h⟩ := Option.bind_eq_some_iff.mp h
  obtain ⟨⟨hour, cs₇⟩, hHour, h⟩ := Option.bind_eq_some_iff.mp h
  obtain ⟨cs₈, hColon, h⟩ := Option.bind_eq_some_iff.mp h
  obtain ⟨⟨minute, cs₉⟩, hMinute, h⟩ := Option.bind_eq_some_iff.mp h
  obtain ⟨cs₁₀, hColon', h⟩ := Option.bind_eq_some_iff.mp h
  obtain ⟨⟨second, cs₁₁⟩, hSecond, h⟩ := Option.bind_eq_some_iff.mp h
  obtain ⟨⟨nanos, cs₁₂⟩, hNanos, h⟩ := Option.bind_eq_some_iff.mp h
  obtain ⟨⟨offset, cs₁₃⟩, hZone, h⟩ := Option.bind_eq_some_iff.mp h
  obtain ⟨hEnd, hFields⟩ := Option.ite_none_right_eq_some.mp h
  obtain rfl := Option.some.inj hFields
  obtain ⟨between, hBetweenMem, hBetween⟩ := exists_between_of_readOneOf? hBetween
    (trimStart_of_readFixedDigits? (by decide) hHour)
  obtain ⟨zone, hZoneMem, hZone⟩ := exists_zone_of_readZone? hZone
  obtain rfl := eq_cons_of_readOneOf? hDash
  obtain rfl := eq_cons_of_readOneOf? hDash'
  obtain rfl := eq_cons_of_readOneOf? hColon
  obtain rfl := eq_cons_of_readOneOf? hColon'
  -- No blank stands in front of a fixed place, so where a pattern would skip blanks there are none.
  have hDate := scan?_yearMonthDay_of_reads (f := {}) (readYear?_trimStart_of_fixed hYear)
    (readDigits?_trimStart_of_fixed hMonth) (readDigits?_trimStart_of_fixed hDay)
  have hClock (f : Fields) := scan?_hourMinuteSecond_of_reads (f := f)
    (readDigits?_trimStart_of_fixed hHour) (readDigits?_trimStart_of_fixed hMinute)
    (readDigits?_trimStart_of_fixed hSecond) hNanos
  refine ⟨yearMonthDay '-' ++ between :: hourMinuteSecond ++ [zone], ?_, ?_⟩
  · exact List.mem_flatMap.mpr ⟨between, hBetweenMem, List.mem_map.mpr ⟨zone, hZoneMem, rfl⟩⟩
  · rw [Pattern.read?_eq_some_iff, ← List.isEmpty_iff.mp hEnd]
    simp only [List.append_assoc, List.cons_append, Pattern.scan?_append, Pattern.scan?, hDate,
      hBetween, hClock, hZone, Option.bind_some]

theorem not_read?_of_clockPattern (hp : p ∈ clockPatterns) (hq : q ∈ instantPatterns)
    (h : p.read? cs = some f) : q.read? cs ≠ some f' := by
  have hHour : ∀ p ∈ clockPatterns, [.hour, .literal ':'] <+: p := by decide +kernel
  have hYear : ∀ q ∈ instantPatterns, [.year, .literal '-'] <+: q ∨ [.year, .literal '/'] <+: q := by
    decide +kernel
  obtain ⟨p, rfl⟩ := hHour p hp
  obtain ⟨c, hc, q, rfl⟩ : ∃ c, c ≠ ':' ∧ [.year, .literal c] <+: q := by
    rcases hYear q hq with hDash | hSlash
    · exact ⟨'-', by decide, hDash⟩
    · exact ⟨'/', by decide, hSlash⟩
  rw [Pattern.read?_eq_some_iff] at h
  rw [Ne, Pattern.read?_eq_some_iff]
  exact fun hRead => nomatch (scan?_year_of_scan?_hour hc h).symm.trans hRead

end

/-- The readers read texts that fit one of the patterns, from the fields of the pattern. -/
def ReadsBy {α : Type} (readers : List (Reader α)) (patterns : List Pattern)
    (value : Fields → Option α) : Prop :=
  ∀ r ∈ readers, ∀ cs a, r cs = some a →
    ∃ p ∈ patterns, ∃ f, p.read? cs = some f ∧ value f = some a

theorem readsBy_map {α : Type} (patterns : List Pattern) (value : Fields → Option α) :
    ReadsBy (patterns.map fun p cs => (p.read? cs).bind value) patterns value := by
  intro r hr cs a ha
  obtain ⟨p, hp, rfl⟩ := List.mem_map.mp hr
  obtain ⟨f, hRead, hValue⟩ := Option.bind_eq_some_iff.mp ha
  exact ⟨p, hp, f, hRead, hValue⟩

theorem readsBy_instantReaders : ReadsBy instantReaders instantPatterns Fields.instant? := by
  intro r hr cs t ht
  rcases List.mem_cons.mp hr with rfl | hr
  · obtain ⟨f, hRead, hInstant⟩ := Option.bind_eq_some_iff.mp ht
    obtain ⟨p, hp, hPattern⟩ := exists_pattern_of_readRfc3339? hRead
    exact ⟨p, List.mem_append_left _ hp, f, hPattern, hInstant⟩
  · have hAll : ∀ p ∈ offsetPatterns ++ utcPatterns, p ∈ instantPatterns := by decide +kernel
    obtain ⟨p, hp, f, hRead⟩ := readsBy_map _ _ r hr cs t ht
    exact ⟨p, hAll p hp, f, hRead⟩

theorem readsBy_dateReaders : ReadsBy dateReaders datePatterns Fields.date? := readsBy_map _ _

theorem readsBy_clockReaders : ReadsBy clockReaders clockPatterns Fields.clockTime? :=
  readsBy_map _ _

section
variable {α β : Type} {readers readers' : List (Reader α)} {others : List (Reader β)}
  {patterns patterns' : List Pattern} {value : Fields → Option α} {value' : Fields → Option β}
  {text : String} {a a' : α} {b : β}

theorem ReadsBy.eq (hReads : ReadsBy readers patterns value)
    (hApart : ∀ p ∈ patterns, ∀ q ∈ patterns, p ≠ q → p.apart q = true)
    (h : HasReading readers text a) (h' : HasReading readers text a') : a = a' := by
  obtain ⟨r, hr, ha⟩ := h
  obtain ⟨r', hr', ha'⟩ := h'
  obtain ⟨p, hp, f, hRead, hValue⟩ := hReads r hr _ _ ha
  obtain ⟨p', hp', f', hRead', hValue'⟩ := hReads r' hr' _ _ ha'
  obtain ⟨-, rfl⟩ := Pattern.eq_of_read? hApart hp hp' hRead hRead'
  exact Option.some.inj (hValue.symm.trans hValue')

theorem ReadsBy.not_both (hReads : ReadsBy readers patterns value)
    (hReads' : ReadsBy others patterns' value')
    (hNever : ∀ p ∈ patterns, ∀ q ∈ patterns', ∀ cs f f', p.read? cs = some f →
      q.read? cs ≠ some f')
    (h : HasReading readers text a) : ¬ HasReading others text b := by
  rintro ⟨r', hr', hb⟩
  obtain ⟨r, hr, ha⟩ := h
  obtain ⟨p, hp, f, hRead, -⟩ := hReads r hr _ _ ha
  obtain ⟨q, hq, f', hRead', -⟩ := hReads' r' hr' _ _ hb
  exact hNever p hp q hq _ f f' hRead hRead'

theorem hasReading_append :
    HasReading (readers ++ readers') text a ↔
      HasReading readers text a ∨ HasReading readers' text a := by
  simp only [HasReading, List.mem_append, or_and_right, exists_or]

theorem hasReading_map {g : α → β} :
    HasReading (readers.map fun r cs => (r cs).map g) text b ↔
      ∃ a, HasReading readers text a ∧ g a = b := by
  constructor
  · rintro ⟨_, hReader, hRead⟩
    obtain ⟨r, hr, rfl⟩ := List.mem_map.mp hReader
    obtain ⟨a, ha, hb⟩ := Option.map_eq_some_iff.mp hRead
    exact ⟨a, ⟨r, hr, ha⟩, hb⟩
  · rintro ⟨a, ⟨r, hr, ha⟩, hb⟩
    exact ⟨_, List.mem_map.mpr ⟨r, hr, rfl⟩, Option.map_eq_some_iff.mpr ⟨a, ha, hb⟩⟩

theorem hasReading_of_firstReading? (h : firstReading? readers (trim text.toList) = some a) :
    HasReading readers text a :=
  List.exists_of_findSome?_eq_some h

theorem firstReading?_eq_some_iff
    (hUnique : ∀ a a', HasReading readers text a → HasReading readers text a' → a = a') :
    firstReading? readers (trim text.toList) = some a ↔ HasReading readers text a := by
  refine ⟨hasReading_of_firstReading?, fun h => ?_⟩
  cases hFirst : firstReading? readers (trim text.toList) with
  | none =>
    obtain ⟨r, hr, ha⟩ := h
    exact absurd ha (by simp [firstReading?_eq_none_iff.mp hFirst r hr])
  | some a' => exact congrArg some (hUnique a' a (hasReading_of_firstReading? hFirst) h)

theorem HasReading.perm (hPerm : readers.Perm readers') (h : HasReading readers text a) :
    HasReading readers' text a := by
  obtain ⟨r, hr, ha⟩ := h
  exact ⟨r, hPerm.mem_iff.mp hr, ha⟩

theorem firstReading?_perm (hPerm : readers'.Perm readers)
    (hUnique : ∀ a a', HasReading readers text a → HasReading readers text a' → a = a') :
    firstReading? readers' (trim text.toList) = firstReading? readers (trim text.toList) := by
  refine Option.ext fun a => ?_
  rw [firstReading?_eq_some_iff hUnique, firstReading?_eq_some_iff]
  · exact ⟨HasReading.perm hPerm, HasReading.perm hPerm.symm⟩
  · exact fun a a' h h' => hUnique a a' (h.perm hPerm) (h'.perm hPerm)

end

section
variable {text : String} {t t' : Instant} {d d' : Date} {c c' : ClockTime} {s s' : Span}

theorem HasReading.instant_eq (h : HasReading instantReaders text t)
    (h' : HasReading instantReaders text t') : t = t' :=
  readsBy_instantReaders.eq (by decide +kernel) h h'

theorem HasReading.date_eq (h : HasReading dateReaders text d)
    (h' : HasReading dateReaders text d') : d = d' :=
  readsBy_dateReaders.eq (by decide +kernel) h h'

theorem HasReading.clock_eq (h : HasReading clockReaders text c)
    (h' : HasReading clockReaders text c') : c = c' :=
  readsBy_clockReaders.eq (by decide +kernel) h h'

theorem HasReading.not_date (h : HasReading instantReaders text t) :
    ¬ HasReading dateReaders text d := by
  have hApart : ∀ p ∈ instantPatterns, ∀ q ∈ datePatterns, p.apart q = true := by decide +kernel
  refine readsBy_instantReaders.not_both readsBy_dateReaders ?_ h
  intro p hp q hq cs f f' hRead hRead'
  rw [Pattern.read?_eq_some_iff] at hRead hRead'
  exact Pattern.not_scan?_of_apart (hApart p hp q hq) hRead hRead'

theorem HasReading.not_instant (h : HasReading clockReaders text c) :
    ¬ HasReading instantReaders text t :=
  readsBy_clockReaders.not_both readsBy_instantReaders
    (fun _ hp _ hq _ _ _ => not_read?_of_clockPattern hp hq) h

theorem hasReading_daySpanReaders_iff : HasReading daySpanReaders text s ↔
    (∃ t, HasReading instantReaders text t ∧ .instant t.micros = s) ∨
      ∃ d, HasReading dateReaders text d ∧ .ofDate d = s := by
  rw [daySpanReaders, hasReading_append, hasReading_map, hasReading_map]

theorem hasReading_timeSpanReaders_iff : HasReading timeSpanReaders text s ↔
    (∃ c, HasReading clockReaders text c ∧ .instant c.micros = s) ∨
      ∃ t, HasReading instantReaders text t ∧ .instant t.timeOfDay = s := by
  rw [timeSpanReaders, hasReading_append, hasReading_map, hasReading_map]

theorem HasReading.daySpan_eq (h : HasReading daySpanReaders text s)
    (h' : HasReading daySpanReaders text s') : s = s' := by
  rw [hasReading_daySpanReaders_iff] at h h'
  rcases h with ⟨t, ht, rfl⟩ | ⟨d, hd, rfl⟩ <;> rcases h' with ⟨t', ht', rfl⟩ | ⟨d', hd', rfl⟩
  · rw [ht.instant_eq ht']
  · exact absurd hd' ht.not_date
  · exact absurd hd ht'.not_date
  · rw [hd.date_eq hd']

theorem HasReading.timeSpan_eq (h : HasReading timeSpanReaders text s)
    (h' : HasReading timeSpanReaders text s') : s = s' := by
  rw [hasReading_timeSpanReaders_iff] at h h'
  rcases h with ⟨c, hc, rfl⟩ | ⟨t, ht, rfl⟩ <;> rcases h' with ⟨c', hc', rfl⟩ | ⟨t', ht', rfl⟩
  · rw [hc.clock_eq hc']
  · exact absurd ht' hc.not_instant
  · exact absurd ht hc'.not_instant
  · rw [ht.instant_eq ht']

theorem readDateSpan?_eq_some_iff :
    readDateSpan? text = some s ↔ HasReading daySpanReaders text s :=
  firstReading?_eq_some_iff fun _ _ => HasReading.daySpan_eq

theorem readTimeSpan?_eq_some_iff :
    readTimeSpan? text = some s ↔ HasReading timeSpanReaders text s :=
  firstReading?_eq_some_iff fun _ _ => HasReading.timeSpan_eq

theorem HasReading.readDateSpan?_instant (h : HasReading instantReaders text t) :
    readDateSpan? text = some (.instant t.micros) :=
  readDateSpan?_eq_some_iff.mpr (hasReading_daySpanReaders_iff.mpr (.inl ⟨t, h, rfl⟩))

theorem HasReading.readDateSpan?_date (h : HasReading dateReaders text d) :
    readDateSpan? text = some (.ofDate d) :=
  readDateSpan?_eq_some_iff.mpr (hasReading_daySpanReaders_iff.mpr (.inr ⟨d, h, rfl⟩))

theorem HasReading.readTimeSpan?_clock (h : HasReading clockReaders text c) :
    readTimeSpan? text = some (.instant c.micros) :=
  readTimeSpan?_eq_some_iff.mpr (hasReading_timeSpanReaders_iff.mpr (.inl ⟨c, h, rfl⟩))

theorem HasReading.readTimeSpan?_instant (h : HasReading instantReaders text t) :
    readTimeSpan? text = some (.instant t.timeOfDay) :=
  readTimeSpan?_eq_some_iff.mpr (hasReading_timeSpanReaders_iff.mpr (.inr ⟨t, h, rfl⟩))

/-- All notations in which a text can be read give it one meaning, whatever the order in which they
are tried. None is a date-time and a date alone, and none a time of day and a date-time. -/
theorem notations_give_one_meaning (text : String) :
    (∀ s s', HasReading daySpanReaders text s → HasReading daySpanReaders text s' → s = s') ∧
    (∀ s s', HasReading timeSpanReaders text s → HasReading timeSpanReaders text s' → s = s') ∧
    (∀ t d, HasReading instantReaders text t → ¬ HasReading dateReaders text d) ∧
    (∀ c t, HasReading clockReaders text c → ¬ HasReading instantReaders text t) ∧
    (∀ readers, readers.Perm daySpanReaders →
      firstReading? readers (trim text.toList) = readDateSpan? text) ∧
    ∀ readers, readers.Perm timeSpanReaders →
      firstReading? readers (trim text.toList) = readTimeSpan? text := by
  refine ⟨fun _ _ => HasReading.daySpan_eq, fun _ _ => HasReading.timeSpan_eq,
    fun _ _ => HasReading.not_date, fun _ _ => HasReading.not_instant, ?_, ?_⟩
  · exact fun readers hPerm => firstReading?_perm hPerm fun _ _ => HasReading.daySpan_eq
  · exact fun readers hPerm => firstReading?_perm hPerm fun _ _ => HasReading.timeSpan_eq

/-- Read as RFC 3339 and by a pattern that allows blanks, and so with the readers reversed. -/
theorem one_meaning_of_two_notations :
    (daySpanReaders.filterMap fun r => r "2024-02-01 10:30:00+02:00".toList).length = 2 ∧
      firstReading? daySpanReaders.reverse (trim "2024-02-01 10:30:00+02:00".toList) =
        readDateSpan? "2024-02-01 10:30:00+02:00" :=
  ⟨by decide +kernel,
    (notations_give_one_meaning _).2.2.2.2.1 _ (List.reverse_perm daySpanReaders)⟩

end

end RecordFilter.Calendar
