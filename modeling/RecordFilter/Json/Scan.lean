import RecordFilter.Json.Token

/-!
# Cutting a JSON text into tokens

Every reader of a token consumes characters, so the scan of a text ends.
-/

namespace RecordFilter

namespace Token

theorem length_of_spanDigits {cs ds rest : List Char} (h : Text.spanDigits cs = (ds, rest)) :
    ds.length + rest.length = cs.length := by
  have := congrArg List.length (Text.spanDigits_append cs)
  rw [h] at this
  simpa using this

theorem length_of_readWhole? {cs ds rest : List Char} (h : readWhole? cs = some (ds, rest)) :
    rest.length < cs.length := by
  unfold readWhole? at h
  split at h
  · simp at h
    simp [← h.2]
  · split at h
    · simp at h
    · rename_i hne
      have hs := Option.some.inj h
      have hl := length_of_spanDigits hs
      cases ds with
      | nil => exact absurd hs (hne rest)
      | cons d ds =>
        simp only [List.length_cons] at hl
        omega

theorem length_of_readFraction? {cs ds rest : List Char} (h : readFraction? cs = some (ds, rest)) :
    rest.length ≤ cs.length := by
  unfold readFraction? at h
  split at h
  · split at h
    · simp at h
    · have hl := length_of_spanDigits (Option.some.inj h)
      simp only [List.length_cons]
      omega
  · simp at h
    simp [h.2]

theorem length_of_readExponentDigits? {negative : Bool} {cs rest : List Char} {e : Option Int}
    (h : readExponentDigits? negative cs = some (e, rest)) : rest.length ≤ cs.length := by
  unfold readExponentDigits? at h
  split at h
  · simp at h
  · have := length_of_spanDigits ‹Text.spanDigits _ = _›
    simp at h
    obtain ⟨_, rfl⟩ := h
    omega

theorem length_of_readExponent? {cs rest : List Char} {e : Option Int}
    (h : readExponent? cs = some (e, rest)) : rest.length ≤ cs.length := by
  unfold readExponent? at h
  split at h
  · split at h
    · split at h <;>
      · have := length_of_readExponentDigits? h
        simp only [List.length_cons] at *
        omega
    · simp at h
      simp [← h.2]
  · simp at h
    simp [h.2]

theorem length_of_readNumber? {cs rest : List Char} {t : NumberText}
    (h : readNumber? cs = some (t, rest)) : rest.length < cs.length := by
  have main : ∀ {negative : Bool} {cs : List Char},
      readUnsigned? negative cs = some (t, rest) → rest.length < cs.length := by
    intro negative cs h
    simp only [readUnsigned?, Option.bind_eq_bind, Option.bind_eq_some_iff] at h
    obtain ⟨⟨_, a⟩, h₁, ⟨_, b⟩, h₂, ⟨_, c⟩, h₃, h₄⟩ := h
    have l₁ := length_of_readWhole? h₁
    have l₂ := length_of_readFraction? h₂
    have l₃ := length_of_readExponent? h₃
    simp at h₄
    obtain ⟨_, rfl⟩ := h₄
    simp only at l₁ l₂ l₃
    omega
  unfold readNumber? at h
  split at h
  · have := main h
    simp only [List.length_cons]
    omega
  · exact main h

theorem length_of_next? {cs rest : List Char} {t : Token} (h : next? cs = some (t, rest)) :
    rest.length < cs.length := by
  unfold next? at h
  split at h
  case h_10 =>
    simp only [Option.map_eq_some_iff] at h
    obtain ⟨⟨ps, r⟩, hr, h⟩ := h
    have := length_of_readPieces? hr
    simp at h
    obtain ⟨_, rfl⟩ := h
    simp only [List.length_cons]
    omega
  case h_11 =>
    simp only [Option.map_eq_some_iff] at h
    obtain ⟨⟨t, r⟩, hr, h⟩ := h
    have := length_of_readNumber? hr
    simp at h
    obtain ⟨_, rfl⟩ := h
    exact this
  all_goals
    simp at h
    obtain ⟨_, rfl⟩ := h
    simp only [List.length_cons]
    omega

def scan? (cs : List Char) (done : List Token) : Option (List Token) :=
  let text := cs.dropWhile isBlank
  if text.isEmpty then some done.reverse
  else match _h : next? text with
    | some (t, rest) => scan? rest (t :: done)
    | none => none
termination_by cs.length
decreasing_by
  have := length_of_next? _h
  have : text.length ≤ cs.length := (List.dropWhile_suffix isBlank).length_le
  omega

end Token

end RecordFilter
