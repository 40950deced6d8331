import FormLogic.Proofs.Binary64.Exact
import FormLogic.Proofs.Derived.Value
import FormLogic.Proofs.Value.Literal

namespace FormLogic

open Binary64 Formula

namespace Value

/-- An answer denotes a whole number: it is this number, a double of its value, or a text of a
literal of it. -/
inductive Denotes (n : Int) : Value → Prop
  | int : Denotes n (.int n)
  | float {x : Finite} (h : x.toRat = n) : Denotes n (.float (.finite x))
  | text {s : String} {l : Literal} (hchars : l.chars = Text.trim s.toList) (h : l.toRat = n) :
      Denotes n (.text s)

/-- What an answer counts in a sum: the whole number that it denotes, and zero if it is not a
number. -/
inductive Counts : Value → Int → Prop
  | nothing {v : Value} (h : v.number? = .ok none) : Counts v 0
  | whole {v : Value} {n : Int} (h : v.Denotes n) : Counts v n

variable {v : Value} {n : Int}

/-- A whole number with at most 53 binary digits is read without rounding, in every notation. -/
theorem Denotes.exists_number? (h : v.Denotes n) (hn : n.natAbs ≤ significands) :
    ∃ x : Finite, v.number? = .ok (some (.finite x)) ∧ x.toRat = n := by
  cases h with
  | int =>
    obtain ⟨x, hx, hrat⟩ := exists_toRat_of_isRounded hn (ofInt_isRounded n)
    refine ⟨x, ?_, hrat⟩
    rw [number?, hx]
    rfl
  | @float x hrat => exact ⟨x, rfl, hrat⟩
  | @text s l hchars hrat =>
    have hrounded := l.value_isRounded
    rw [hrat] at hrounded
    obtain ⟨x, hx, hxrat⟩ := exists_toRat_of_isRounded hn hrounded
    have hread : numberOfText? s = some (.finite x) :=
      (numberOfText?_eq_some_iff s _).2 ⟨l, hchars, hx, rfl⟩
    exact ⟨x, congrArg Except.ok hread, hxrat⟩

theorem Counts.exists_summand (h : v.Counts n) (hn : n.natAbs ≤ significands) :
    ¬v.IsTooLarge ∧ ∃ x : Finite, v.summand = .finite x ∧ x.toRat = n := by
  rw [← number?_fails_iff]
  cases h with
  | nothing h =>
    obtain ⟨x, hx, hrat⟩ := exists_zero_eq false
    refine ⟨fun ⟨_, herror⟩ => ?_, x, ?_, hrat.trans Int.cast_zero.symm⟩
    · rw [h] at herror
      cases herror
    · rw [summand, h, ← hx]
  | whole h =>
    obtain ⟨x, hx, hrat⟩ := h.exists_number? hn
    refine ⟨fun ⟨_, herror⟩ => ?_, x, ?_, hrat⟩
    · rw [hx] at herror
      cases herror
    · rw [summand, hx]

end Value

namespace Derived
variable {answers : Answers} {n : String → Int} {parents : List String}

/-- The total stays exact from every whole number on, as long as this number and those that are
still to be added are small enough together. -/
theorem exists_foldl_eq_of_counts (h : ∀ parent ∈ parents, (answers.get parent).Counts (n parent))
    {start : Finite} {m : Int} (hstart : start.toRat = m)
    (hbound : m.natAbs + (parents.map fun parent => (n parent).natAbs).sum ≤ significands) :
    ∃ x : Finite, parents.foldl (fun sum parent => sum + (answers.get parent).summand)
        (.finite start) = .finite x ∧ x.toRat = (m + (parents.map n).sum : Int) := by
  -- on the parents that are left: the total and what is still to be added stay within the bound
  induction parents generalizing start m with
  | nil => exact ⟨start, rfl, by simpa using hstart⟩
  | cons parent parents ih =>
    rw [List.forall_mem_cons] at h
    rw [List.map_cons, List.sum_cons] at hbound
    obtain ⟨-, x, hx, hrat⟩ := h.1.exists_summand (by omega)
    have htriangle := Int.natAbs_add_le m (n parent)
    obtain ⟨next, hnext, hnextRat⟩ := exists_add_eq hstart hrat (by omega)
    obtain ⟨y, hy, hyrat⟩ := ih h.2 hnextRat (by omega)
    refine ⟨y, ?_, ?_⟩
    · rw [List.foldl_cons, hx, hnext, hy]
    · rw [hyrat, List.map_cons, List.sum_cons, Int.add_assoc]

theorem natAbs_sum_le (n : String → Int) (parents : List String) :
    (parents.map n).sum.natAbs ≤ (parents.map fun parent => (n parent).natAbs).sum := by
  have hsum := List.le_sum_of_subadditive Int.natAbs le_rfl Int.natAbs_add_le (parents.map n)
  rwa [List.map_map] at hsum

theorem significands_lt_displayLimit : significands < displayLimit := by decide +kernel

/-- A sum of whole numbers is displayed as a whole number. -/
theorem sum_of_counts (h : ∀ parent ∈ parents, (answers.get parent).Counts (n parent))
    (hbound : (parents.map fun parent => (n parent).natAbs).sum ≤ significands) :
    sum answers parents = toString (parents.map n).sum := by
  have hsmall : ∀ parent ∈ parents, ¬(answers.get parent).IsTooLarge := by
    intro parent hparent
    have hle := List.le_sum_of_mem
      (List.mem_map_of_mem hparent : (n parent).natAbs ∈ parents.map fun p => (n p).natAbs)
    exact ((h parent hparent).exists_summand (hle.trans hbound)).1
  obtain ⟨start, hstart, hzero⟩ := exists_zero_eq false
  obtain ⟨x, hx, hrat⟩ := exists_foldl_eq_of_counts h (hzero.trans Int.cast_zero.symm)
    (by simpa using hbound)
  have htotal : total answers parents = .finite x := by rw [total, hstart, hx]
  have hfits : ¬SumFails answers parents := by
    rw [SumFails, exists_not_finite_iff, htotal]
    rintro (⟨parent, hparent, htoo⟩ | hinfinite)
    · exact hsmall parent hparent htoo
    · cases hinfinite
  obtain ⟨y, hy, hsum⟩ := exists_sum_of_not_sumFails answers parents hfits
  obtain rfl : x = y := Binary64.finite.inj (htotal.symm.trans hy)
  rw [Int.zero_add] at hrat
  rw [hsum]
  exact display_of_toRat hrat
    (((natAbs_sum_le n parents).trans hbound).trans_lt significands_lt_displayLimit)

theorem toString_ne_negativeZero (m : Int) : toString m ≠ "-0" := by
  intro h
  obtain ⟨d, hread, hnegative, hrat⟩ := exists_read?_int m
  rw [h] at hread
  -- the text would be read as a negative number, and as zero
  have hd : Decimal.read? Text.decimalDigit? "-0".toList = some ⟨true, 0, 0⟩ := by decide +kernel
  obtain rfl := Option.some.inj (hd.symm.trans hread)
  have hneg : m < 0 := of_decide_eq_true hnegative.symm
  have hzero : (m : ℚ) = 0 := by
    rw [← hrat]
    simp [Decimal.toRat, signed]
  exact hneg.ne (Int.cast_eq_zero.1 hzero)

/-- Answers that are no numbers count as zero in a sum. If all others denote whole numbers and the
absolute values, one for each occurrence of a parent, add up to at most 2^53, then the sum is
written in full as the exact sum, a zero without a sign, in every order of the parents. -/
theorem ofField?_sum_of_counts {f : Field} {d : Derivation} (hf : f.derivation = some d)
    (hlogic : d.logic = .sum) (h : ∀ parent ∈ d.parents, (answers.get parent).Counts (n parent))
    (hbound : (d.parents.map fun parent => (n parent).natAbs).sum ≤ 2 ^ 53)
    (settings : Settings) (today : Date) :
    ofField? settings today answers f = some (toString (d.parents.map n).sum) ∧
      (∀ c ∈ (toString (d.parents.map n).sum).toList, Token.isDigit c = true ∨ c = '-') ∧
      toString (d.parents.map n).sum ≠ "-0" ∧
      ∀ parents, parents.Perm d.parents →
        ofField? settings today answers
            { f with derivation := some { d with parents := parents } } =
          some (toString (d.parents.map n).sum) := by
  rw [← Nat.one_shiftLeft, ← significands] at hbound
  refine ⟨?exact, fun c hc => isDigit_or_minus_of_mem_toString hc, toString_ne_negativeZero _,
    fun parents hperm => ?order⟩
  case exact =>
    rw [ofField?, hf, Option.map_some, value, hlogic]
    exact congrArg some (sum_of_counts h hbound)
  case order =>
    have hboundPerm : (parents.map fun parent => (n parent).natAbs).sum ≤ significands := by
      rwa [(hperm.map _).sum_eq]
    have hsum := sum_of_counts (fun parent hparent => h parent (hperm.mem_iff.1 hparent)) hboundPerm
    rw [ofField?, Option.map_some, value, hlogic, ← (hperm.map n).sum_eq]
    exact congrArg some hsum

/-- The absolute values add up to 2^53, over a parent that occurs twice, a literal with an exponent,
a double, and two answers that are no numbers. -/
theorem ofField?_sum_of_counts_stock :
    let d : Derivation := ⟨["stock", "sold", "returned", "note", "sold", "closed"], .sum, ""⟩
    let f : Field := .ofNumber "left" (some d) rfl
    let returned : Finite := .ofInt 8 (by decide +kernel)
    let answers : Answers := .ofList [("stock", .int 9007199254740960), ("sold", .text " -1.20e1\n"),
      ("returned", .float (.finite returned)), ("note", .text "1_000"), ("closed", .bool true)]
    let n : String → Int := fun parent =>
      if parent = "stock" then 9007199254740960 else if parent = "sold" then -12
      else if parent = "returned" then 8 else 0
    (∀ parent ∈ d.parents, (answers.get parent).Counts (n parent)) ∧
      (d.parents.map fun parent => (n parent).natAbs).sum = 2 ^ 53 ∧
      ∀ today, ofField? {} today answers f = some "9007199254740944" := by
  intro d f returned answers n
  let twelve : Literal := ⟨some true, [⟨'1', 1, by decide⟩],
    some [⟨'2', 2, by decide⟩, ⟨'0', 0, by decide⟩],
    some ⟨false, none, [⟨'1', 1, by decide⟩], by simp⟩, by simp⟩
  have htwelve : twelve.toRat = (-12 : Int) := by
    norm_num [twelve, Literal.toRat, signed, Decimal.ofDigits, Exponent.value]
    exact (Option.some_ne_none true).symm
  have hcounts : ∀ parent ∈ d.parents, (answers.get parent).Counts (n parent) := by
    have hsold : (answers.get "sold").Counts (-12) :=
      .whole (.text (l := twelve) (by decide +kernel) htwelve)
    simp only [d, List.forall_mem_cons]
    exact ⟨.whole .int, hsold, .whole (.float (Finite.toRat_ofInt _)),
      .nothing (by decide +kernel), hsold, .nothing rfl, List.forall_mem_nil _⟩
  have hbound : (d.parents.map fun parent => (n parent).natAbs).sum = 2 ^ 53 := by decide +kernel
  have hsum : toString (d.parents.map n).sum = "9007199254740944" := by decide +kernel
  refine ⟨hcounts, hbound, fun today => ?_⟩
  rw [(ofField?_sum_of_counts (f := f) rfl rfl hcounts hbound.le {} today).1, hsum]

end Derived
end FormLogic
