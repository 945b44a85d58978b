import RecordFilter.Proofs.Condition.Probe
import RecordFilter.Proofs.Number.Order
import RecordFilter.Query.Basic

/-!
# The order of records

The sort keys of a query compare records one after another. A key is a total preorder on records
from which it reads numbers of one encoding only: its order is then that of ranks, nulls last in
both directions. So is the order of the whole query.
-/

namespace RecordFilter

open Std

section
variable {α β : Type} {cmp : α → α → Ordering}

/-- An order of what may be missing, in a direction; what is missing comes last in both. -/
def Direction.nullsLast (d : Direction) (cmp : α → α → Ordering) : Option α → Option α → Ordering
  | some a, some b => d.apply (cmp a b)
  | some _, none => .lt
  | none, some _ => .gt
  | none, none => .eq

theorem Direction.transCmp_apply [TransCmp cmp] (d : Direction) :
    TransCmp fun a b => d.apply (cmp a b) := by
  cases d with
  | asc => assumption
  | desc =>
    refine { eq_swap := fun {a b} => ?_, isLE_trans := fun {a b c} hab hbc => ?_ }
    · exact congrArg Ordering.swap OrientedCmp.eq_swap
    · simp only [apply] at hab hbc ⊢
      rw [← OrientedCmp.eq_swap] at hab hbc ⊢
      exact TransCmp.isLE_trans hbc hab

theorem Direction.transCmp_nullsLast [TransCmp cmp] (d : Direction) :
    TransCmp (d.nullsLast cmp) := by
  have hApply : TransCmp fun a b => d.apply (cmp a b) := d.transCmp_apply
  refine { eq_swap := fun {a b} => ?_, isLE_trans := fun {a b c} hab hbc => ?_ }
  · cases a with
    | none => cases b <;> rfl
    | some a =>
      cases b with
      | none => rfl
      | some b => exact hApply.eq_swap
  · cases c with
    | none => cases a <;> rfl
    | some c =>
      cases b with
      | none => cases hbc
      | some b =>
        cases a with
        | none => cases hab
        | some a => exact hApply.isLE_trans hab hbc

theorem transCmp_comap [TransCmp cmp] (f : β → α) : TransCmp fun a b => cmp (f a) (f b) where
  eq_swap := OrientedCmp.eq_swap
  isLE_trans := TransCmp.isLE_trans

end

theorem DataType.order_eq_nullsLast (t : DataType) (d : Direction) (v w : Value) :
    t.order d v w = d.nullsLast Probe.order (v.probe? t) (w.probe? t) := by
  unfold order
  cases v.probe? t <;> cases w.probe? t <;> rfl

theorem DataType.transCmp_order {σ β : Type} [Ord β] [TransOrd β] {t : DataType} (d : Direction)
    {read : σ → Value} (rank : Probe → β)
    (hRank : ∀ a b p q, (read a).probe? t = some p → (read b).probe? t = some q →
      p.order q = compare (rank p) (rank q)) :
    TransCmp fun a b => t.order d (read a) (read b) := by
  have hSorted : TransCmp (d.nullsLast fun p q => compare (rank p) (rank q)) :=
    have : TransCmp fun p q => compare (rank p) (rank q) :=
      @transCmp_comap β Probe compare inferInstance rank
    d.transCmp_nullsLast
  have hOrder : (fun a b => t.order d (read a) (read b)) = fun a b =>
      d.nullsLast (fun p q => compare (rank p) (rank q)) ((read a).probe? t)
        ((read b).probe? t) := by
    funext a b
    rw [order_eq_nullsLast]
    cases ha : (read a).probe? t with
    | none => cases (read b).probe? t <;> rfl
    | some p =>
      cases hb : (read b).probe? t with
      | none => rfl
      | some q => exact congrArg d.apply (hRank a b p q ha hb)
  rw [hOrder]
  exact transCmp_comap fun a => (read a).probe? t

variable {κ : Type}

/-- On the records the key reads integers, or reals, but not both; other values are free. -/
def SortKey.ReadsOneEncoding (k : SortKey κ) (rs : List Record) : Prop :=
  (∀ r ∈ rs, ∀ n, k.field.read r = .number n → n.integer?.isSome) ∨
    ∀ r ∈ rs, ∀ n, k.field.read r = .number n → n.real?.isSome

namespace Probe

/-! The ranks by which probes of one form are ordered; other probes have none of their own. -/

def textRank : Probe → String
  | text s => s
  | _ => ""

def truthRank : Probe → Bool
  | bool b => b
  | _ => false

def microsRank : Probe → Int
  | micros m => m
  | _ => 0

def integerRank : Probe → Int
  | number n => n.integer?.getD 0
  | _ => 0

def placeRank : Probe → Int
  | number n => n.place
  | _ => 0

end Probe

theorem Number.order_eq_compare_integers {a b : Number} (ha : a.integer?.isSome)
    (hb : b.integer?.isSome) : a.order b = compare (a.integer?.getD 0) (b.integer?.getD 0) := by
  obtain ⟨m, hm⟩ := Option.isSome_iff_exists.mp ha
  obtain ⟨n, hn⟩ := Option.isSome_iff_exists.mp hb
  rw [order_of_integers hm hn, hm, hn]
  rfl

theorem Number.order_eq_compare_place {a b : Number} (ha : a.real?.isSome) :
    a.order b = compare a.place b.place := by
  cases a with
  | real x => exact order_of_not_integers (.inl rfl)
  | int n => cases ha
  | nat n => cases ha

section
variable {rs : List Record}

theorem SortKey.transCmp_order {k : SortKey κ}
    (hEncoding : k.dataType = .number → k.ReadsOneEncoding rs) :
    TransCmp fun a b : { r // r ∈ rs } => k.order a b := by
  have hMicros (ht : k.dataType = .date ∨ k.dataType = .time) :
      TransCmp fun a b : { r // r ∈ rs } => k.order a b := by
    refine DataType.transCmp_order k.direction Probe.microsRank fun a b p q hp hq => ?_
    obtain ⟨m, rfl⟩ := Value.eq_micros_of_probe? ht hp
    obtain ⟨n, rfl⟩ := Value.eq_micros_of_probe? ht hq
    rfl
  cases hType : k.dataType with
  | date => exact hMicros (.inl hType)
  | time => exact hMicros (.inr hType)
  | text =>
    simp only [order, hType]
    refine DataType.transCmp_order k.direction Probe.textRank fun a b p q hp hq => ?_
    obtain ⟨s, rfl⟩ := Value.eq_text_of_probe? hp
    obtain ⟨t, rfl⟩ := Value.eq_text_of_probe? hq
    rfl
  | boolean =>
    simp only [order, hType]
    refine DataType.transCmp_order k.direction Probe.truthRank fun a b p q hp hq => ?_
    obtain ⟨s, rfl⟩ := Value.eq_bool_of_probe? hp
    obtain ⟨t, rfl⟩ := Value.eq_bool_of_probe? hq
    rfl
  | number =>
    simp only [order, hType]
    rcases hEncoding hType with hIntegers | hReals
    · refine DataType.transCmp_order k.direction Probe.integerRank fun a b p q hp hq => ?_
      obtain ⟨m, hm, rfl⟩ := Value.eq_number_of_probe?_number hp
      obtain ⟨n, hn, rfl⟩ := Value.eq_number_of_probe?_number hq
      exact Number.order_eq_compare_integers (hIntegers a a.2 m hm) (hIntegers b b.2 n hn)
    · refine DataType.transCmp_order k.direction Probe.placeRank fun a b p q hp hq => ?_
      obtain ⟨m, hm, rfl⟩ := Value.eq_number_of_probe?_number hp
      obtain ⟨n, hn, rfl⟩ := Value.eq_number_of_probe?_number hq
      exact Number.order_eq_compare_place (hReals a a.2 m hm)

theorem transCmp_orderByKeys {keys : List (SortKey κ)}
    (hEncodings : ∀ k ∈ keys, k.dataType = .number → k.ReadsOneEncoding rs) :
    TransCmp fun a b : { r // r ∈ rs } => orderByKeys keys a b := by
  induction keys with
  | nil => exact { eq_swap := rfl, isLE_trans := fun _ _ => rfl }
  | cons k keys ih =>
    have hFirst := SortKey.transCmp_order (hEncodings k List.mem_cons_self)
    have hRest := ih fun j hj => hEncodings j (List.mem_cons_of_mem _ hj)
    exact inferInstanceAs (TransCmp (compareLex (fun a b : { r // r ∈ rs } => k.order a b)
      fun a b => orderByKeys keys a b))

namespace CompiledQuery

variable {q : CompiledQuery κ} {a b c : Record}

theorem order_swap (hEncodings : ∀ k ∈ q.sort, k.dataType = .number → k.ReadsOneEncoding rs)
    (ha : a ∈ rs) (hb : b ∈ rs) : q.order b a = (q.order a b).swap :=
  (transCmp_orderByKeys hEncodings).eq_swap (a := ⟨b, hb⟩) (b := ⟨a, ha⟩)

theorem order_trans (hEncodings : ∀ k ∈ q.sort, k.dataType = .number → k.ReadsOneEncoding rs)
    (ha : a ∈ rs) (hb : b ∈ rs) (hc : c ∈ rs) (hab : q.order a b ≠ .gt)
    (hbc : q.order b c ≠ .gt) : q.order a c ≠ .gt := by
  have hSorted := transCmp_orderByKeys hEncodings
  exact Ordering.isLE_iff_ne_gt.mp <|
    hSorted.isLE_trans (a := ⟨a, ha⟩) (b := ⟨b, hb⟩) (c := ⟨c, hc⟩)
      (Ordering.isLE_iff_ne_gt.mpr hab) (Ordering.isLE_iff_ne_gt.mpr hbc)

end CompiledQuery

end

/-- On three records from which every numeric key reads one encoding, the order is a total
preorder, and strict as soon as one of its steps is. -/
theorem CompiledQuery.order_swap_refl_trans {q : CompiledQuery κ} {a b c : Record}
    (hEncodings : ∀ k ∈ q.sort, k.dataType = .number → k.ReadsOneEncoding [a, b, c]) :
    q.order b a = (q.order a b).swap ∧ q.order a a = .eq ∧
      (q.order a b ≠ .gt → q.order b c ≠ .gt →
        q.order a c ≠ .gt ∧ (q.order a b = .lt ∨ q.order b c = .lt → q.order a c = .lt)) := by
  have ha : a ∈ [a, b, c] := by simp
  have hb : b ∈ [a, b, c] := by simp
  have hc : c ∈ [a, b, c] := by simp
  refine ⟨order_swap hEncodings ha hb, ?_, ?_⟩
  · exact Ordering.eq_eq_of_eq_swap (order_swap hEncodings ha ha)
  · intro hab hbc
    refine ⟨order_trans hEncodings ha hb hc hab hbc, ?_⟩
    intro hStrict
    -- Were `c` not behind `a`, going round from it would turn the strict step back.
    by_contra hNotLess
    have hca : q.order c a ≠ .gt := by
      rw [order_swap hEncodings ha hc]
      intro h
      exact hNotLess (Ordering.swap_eq_gt.mp h)
    rcases hStrict with hLess | hLess
    · refine order_trans hEncodings hb hc ha hbc hca ?_
      rw [order_swap hEncodings ha hb, hLess]
      rfl
    · refine order_trans hEncodings hc ha hb hca hab ?_
      rw [order_swap hEncodings hb hc, hLess]
      rfl

namespace Contest

def points : ResolvedField Unit :=
  ⟨"team.points", ["team"], "points", .integer, ⟨"j_team", "points"⟩, []⟩

def pace : ResolvedField Unit := ⟨"pace", [], "pace", .real, ⟨"runs", "pace"⟩, []⟩

def ranking : CompiledQuery Unit :=
  { schema := { name := "Run", table := "runs" }
    logic := .and
    filters := []
    sort := [⟨points, .number, .desc⟩, ⟨pace, .number, .asc⟩]
    joins := [] }

def run (team : List (String × Record)) (time : Value) : Record := .mk [("pace", time)] team

def withPoints (n : Number) : List (String × Record) :=
  [("team", .mk [("points", .number n)] [])]

/-- An unsigned score beyond the signed range, and a NaN with the sign bit for a time. -/
def first : Record :=
  run (withPoints (.nat 18446744073709551615)) (.number (.real ⟨0xfff8000000000000⟩))

def second : Record := run (withPoints (.nat 18446744073709551615)) (.number (.real ⟨0⟩))

/-- A team that is not loaded, and a time that is no number. -/
def third : Record := run [] (.text "did not finish")

theorem readsOneEncoding_points : SortKey.ReadsOneEncoding ⟨points, .number, .desc⟩
    [first, second, third] := by
  left
  intro r hr n hn
  simp only [List.mem_cons, List.not_mem_nil, or_false] at hr
  rcases hr with rfl | rfl | rfl <;> cases hn <;> rfl

theorem readsOneEncoding_pace : SortKey.ReadsOneEncoding ⟨pace, .number, .asc⟩
    [first, second, third] := by
  right
  intro r hr n hn
  simp only [List.mem_cons, List.not_mem_nil, or_false] at hr
  rcases hr with rfl | rfl | rfl <;> cases hn <;> rfl

theorem first_before_third :
    ranking.order second first = (ranking.order first second).swap ∧
      ranking.order first third = .lt := by
  have hEncodings : ∀ k ∈ ranking.sort, k.dataType = .number →
      k.ReadsOneEncoding [first, second, third] := by
    intro k hk _
    simp only [ranking, List.mem_cons, List.not_mem_nil, or_false] at hk
    rcases hk with rfl | rfl
    · exact readsOneEncoding_points
    · exact readsOneEncoding_pace
  obtain ⟨hSwap, -, hTrans⟩ := CompiledQuery.order_swap_refl_trans hEncodings
  have hFirst : ranking.order first second = .lt := by decide +kernel
  have hSecond : ranking.order second third = .lt := by decide +kernel
  exact ⟨hSwap, (hTrans (by simp [hFirst]) (by simp [hSecond])).2 (.inl hFirst)⟩

end Contest

end RecordFilter
