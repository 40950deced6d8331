import FormLogic.Text.Blank
import FormLogic.Text.Digit
import Mathlib.Data.List.Basic

namespace FormLogic.Text

def Blanks (cs : List Char) : Prop := ∀ c ∈ cs, isBlank c = true

theorem blanks_nil : Blanks [] := fun _ hc => absurd hc List.not_mem_nil

theorem Blanks.append {cs cs' : List Char} (h : Blanks cs) (h' : Blanks cs') :
    Blanks (cs ++ cs') := by
  intro c hc
  rcases List.mem_append.1 hc with hc | hc
  · exact h c hc
  · exact h' c hc

theorem Blanks.not_mem {gap : List Char} (h : Blanks gap) {c : Char} (hc : isBlank c = false) :
    c ∉ gap := by
  intro hmem
  rw [h c hmem] at hc
  cases hc

def blankCodes : List Nat :=
  List.range' 9 5 ++ List.range' 0x1C 5 ++ [0x85, 0xA0, 0x1680] ++ List.range' 0x2000 11 ++
    [0x2028, 0x2029, 0x202F, 0x205F, 0x3000]

theorem mem_blankCodes {c : Char} (h : isBlank c = true) : c.toNat ∈ blankCodes := by
  simp only [isBlank, isWhiteSpace, Bool.or_eq_true, Bool.and_eq_true, decide_eq_true_eq,
    beq_iff_eq] at h
  simp only [blankCodes, List.mem_append, List.mem_range'_1, List.mem_cons, List.not_mem_nil,
    or_false]
  omega

theorem decimalDigit?_of_isBlank {c : Char} (h : isBlank c = true) : decimalDigit? c = none := by
  have hall : ∀ n ∈ blankCodes,
      (digitZeros.find? fun first => first ≤ n && n < first + 10) = none := by
    decide
  rw [decimalDigit?, hall c.toNat (mem_blankCodes h)]
  rfl

theorem exists_trim (cs : List Char) :
    ∃ gap gap', Blanks gap ∧ Blanks gap' ∧ cs = gap ++ (trim cs ++ gap') := by
  have hblanks : ∀ ds : List Char, Blanks (ds.takeWhile isBlank) := fun ds =>
    List.all_eq_true.1 List.all_takeWhile
  let rest := cs.dropWhile isBlank
  have hrest : (rest.reverse.dropWhile isBlank).reverse ++
      (rest.reverse.takeWhile isBlank).reverse = rest := by
    rw [← List.reverse_append, List.takeWhile_append_dropWhile, List.reverse_reverse]
  refine ⟨cs.takeWhile isBlank, (rest.reverse.takeWhile isBlank).reverse, hblanks cs, ?_, ?_⟩
  · intro c hc
    exact hblanks rest.reverse c (List.mem_reverse.1 hc)
  · change _ = _ ++ ((rest.reverse.dropWhile isBlank).reverse ++ _)
    rw [hrest, List.takeWhile_append_dropWhile]

theorem trim_eq_self {cs : List Char} (h : ∀ c ∈ cs, isBlank c = false) : trim cs = cs := by
  have hdrop : ∀ ds : List Char, (∀ c ∈ ds, isBlank c = false) → ds.dropWhile isBlank = ds := by
    intro ds hds
    cases ds with
    | nil => rfl
    | cons c ds => rw [List.dropWhile_cons, if_neg (by simp [hds c List.mem_cons_self])]
  rw [trim, trimBy, hdrop cs h, hdrop _ fun c hc => h c (List.mem_reverse.1 hc),
    List.reverse_reverse]

theorem Blanks.dropWhile_reverse {cs : List Char} (h : Blanks cs) (ds : List Char) :
    (cs.reverse ++ ds).dropWhile isBlank = ds.dropWhile isBlank :=
  List.dropWhile_append_of_pos fun c hc => h c (List.mem_reverse.1 hc)

theorem trim_padded {before after : List Char} (hbefore : Blanks before) (hafter : Blanks after)
    (cs : List Char) : trim (before ++ (cs ++ after)) = trim cs := by
  have hempty : (after ++ []).dropWhile isBlank = [] := List.dropWhile_append_of_pos hafter
  rw [List.append_nil] at hempty
  rw [trim, trim, trimBy, trimBy, List.dropWhile_append_of_pos hbefore, List.dropWhile_append]
  split
  · next h => rw [hempty, List.isEmpty_iff.1 h]
  · rw [List.reverse_append, hafter.dropWhile_reverse]

end FormLogic.Text
