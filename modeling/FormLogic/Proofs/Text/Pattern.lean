import FormLogic.Text.Pattern
import Mathlib.Algebra.BigOperators.Group.List.Basic
import Mathlib.Computability.Language

namespace FormLogic.Text.Pattern

open scoped Computability

variable {p q : Pattern} {l m : Language Char} {isClass : Char → Bool}
  {follows : List Char → Bool} {cs part : List Char}

theorem passes_ahead_append : (ahead p ++ q).passes follows cs = true ↔
    p.passes (fun _ => true) cs = true ∧ q.passes follows cs = true :=
  Bool.and_eq_true_iff

theorem passes_notAhead_append : (notAhead p ++ q).passes follows cs = true ↔
    p.passes (fun _ => true) cs = false ∧ q.passes follows cs = true := by
  rw [← Bool.not_eq_true']
  exact Bool.and_eq_true_iff

theorem passes_char {c : Char} : (char c).passes (fun _ => true) cs = true ↔ cs.head? = some c := by
  cases cs with
  | nil => simp [char, passes]
  | cons c' cs => simp [char, passes]

/-- A pattern takes the texts of a language, whatever follows them. None is missed, because what an
earlier part has taken too much of is given back. -/
def Takes (p : Pattern) (l : Language Char) : Prop :=
  ∀ follows cs, p.passes follows cs = true ↔
    ∃ part ∈ l, ∃ rest, part ++ rest = cs ∧ follows rest = true

def single (isClass : Char → Bool) : Language Char := {part | ∃ c, isClass c = true ∧ [c] = part}

theorem takes_oneOf (isClass : Char → Bool) : Takes (oneOf isClass) (single isClass) := by
  intro follows cs
  constructor
  · intro h
    cases cs with
    | nil => cases h
    | cons c cs =>
      rw [passes, Bool.and_eq_true] at h
      exact ⟨[c], ⟨c, h.1, rfl⟩, cs, rfl, h.2⟩
  · rintro ⟨_, ⟨c, hc, rfl⟩, rest, rfl, hrest⟩
    exact Bool.and_eq_true_iff.2 ⟨hc, hrest⟩

theorem giveBack_iff {taken rest : List Char} : giveBack follows taken rest = true ↔
    ∃ back keep, back ++ keep = taken ∧ follows (back.reverse ++ rest) = true := by
  induction taken generalizing rest with
  | nil => simp [giveBack]
  | cons c taken ih =>
    rw [giveBack, Bool.or_eq_true, ih]
    constructor
    · rintro (h | ⟨back, keep, rfl, h⟩)
      · exact ⟨[], c :: taken, rfl, h⟩
      · exact ⟨c :: back, keep, rfl, by simpa using h⟩
    · rintro ⟨back, keep, heq, h⟩
      cases back with
      | nil => exact .inl h
      | cons c' back =>
        obtain ⟨rfl, rfl⟩ := List.cons.inj heq
        exact .inr ⟨back, keep, rfl, by simpa using h⟩

theorem mem_kstar_single : part ∈ (single isClass)∗ ↔ ∀ c ∈ part, isClass c = true := by
  constructor
  · rintro ⟨parts, rfl, hparts⟩ c hc
    obtain ⟨part, hpart, hc⟩ := List.mem_flatten.1 hc
    obtain ⟨c', hc', rfl⟩ := hparts part hpart
    rwa [List.mem_singleton.1 hc]
  · intro h
    refine ⟨part.map ([·]), by simp [List.flatten_eq_flatMap, List.flatMap_map], ?_⟩
    intro part' hpart'
    obtain ⟨c, hc, rfl⟩ := List.mem_map.1 hpart'
    exact ⟨c, h c hc, rfl⟩

theorem takes_manyOf (isClass : Char → Bool) : Takes (manyOf isClass) (single isClass)∗ := by
  intro follows cs
  rw [passes, giveBack_iff]
  constructor
  · rintro ⟨back, keep, htaken, h⟩
    have htake : cs.takeWhile isClass = keep.reverse ++ back.reverse := by
      rw [← List.reverse_append, htaken, List.reverse_reverse]
    refine ⟨keep.reverse, mem_kstar_single.2 fun c hc => ?_, _, ?_, h⟩
    · exact List.all_eq_true.1 List.all_takeWhile c (by rw [htake]; exact List.mem_append_left _ hc)
    · rw [← List.append_assoc, ← htake, List.takeWhile_append_dropWhile]
  · rintro ⟨part, hpart, rest, rfl, h⟩
    rw [mem_kstar_single] at hpart
    refine ⟨(rest.takeWhile isClass).reverse, part.reverse, ?_, ?_⟩
    · rw [List.takeWhile_append_of_pos hpart, List.reverse_append]
    · rwa [List.dropWhile_append_of_pos hpart, List.reverse_reverse,
        List.takeWhile_append_dropWhile]

theorem Takes.append (hp : Takes p l) (hq : Takes q m) : Takes (p ++ q) (l * m) := by
  intro follows cs
  refine (hp (q.passes follows) cs).trans ?_
  constructor
  · rintro ⟨part, hpart, mid, rfl, hmid⟩
    obtain ⟨part', hpart', rest, rfl, hrest⟩ := (hq _ _).1 hmid
    exact ⟨part ++ part', Language.append_mem_mul hpart hpart', rest, List.append_assoc _ _ _,
      hrest⟩
  · rintro ⟨_, ⟨part, hpart, part', hpart', rfl⟩, rest, rfl, hrest⟩
    exact ⟨part, hpart, part' ++ rest, (List.append_assoc _ _ _).symm,
      (hq _ _).2 ⟨part', hpart', rest, rfl, hrest⟩⟩

/-- Repetitions take as many texts of a language as they are allowed to. -/
theorem repeats_iff (hp : Takes p l) (n : Nat) (cs : List Char) :
    repeats p.passes follows n cs = true ↔
      ∃ parts : List (List Char), parts.length ≤ n ∧ (∀ part ∈ parts, part ∈ l) ∧
        ∃ rest, parts.flatten ++ rest = cs ∧ follows rest = true := by
  induction n generalizing cs with
  | zero =>
    simp only [repeats, Nat.le_zero, List.length_eq_zero_iff]
    constructor
    · exact fun h => ⟨[], rfl, by simp, cs, rfl, h⟩
    · rintro ⟨_, rfl, -, rest, rfl, h⟩
      exact h
  | succ n ih =>
    rw [repeats, Bool.or_eq_true, hp]
    constructor
    · rintro (⟨part, hpart, mid, rfl, hmid⟩ | h)
      · obtain ⟨parts, hlength, hparts, rest, rfl, h⟩ := (ih mid).1 hmid
        exact ⟨part :: parts, Nat.succ_le_succ hlength, List.forall_mem_cons.2 ⟨hpart, hparts⟩,
          rest, by simp, h⟩
      · exact ⟨[], Nat.zero_le _, by simp, cs, rfl, h⟩
    · rintro ⟨parts, hlength, hparts, rest, rfl, h⟩
      cases parts with
      | nil => exact .inr h
      | cons part parts =>
        rw [List.forall_mem_cons] at hparts
        refine .inl ⟨part, hparts.1, parts.flatten ++ rest, by simp, (ih _).2 ?_⟩
        exact ⟨parts, Nat.le_of_succ_le_succ hlength, hparts.2, rest, rfl, h⟩

theorem Takes.many (hp : Takes p l) : Takes (many p) l∗ := by
  intro follows cs
  rw [passes, repeats_iff hp]
  constructor
  · rintro ⟨parts, -, hparts, rest, rfl, h⟩
    exact ⟨parts.flatten, Language.join_mem_kstar hparts, rest, rfl, h⟩
  · rintro ⟨_, hmem, rest, rfl, h⟩
    -- empty parts can be left out, and of the others there are no more than characters
    obtain ⟨parts, rfl, hparts⟩ := Language.mem_kstar_iff_exists_nonempty.1 hmem
    refine ⟨parts, ?_, fun part hpart => (hparts part hpart).1, rest, rfl, h⟩
    have hlength : parts.length ≤ parts.flatten.length := by
      rw [List.length_flatten, ← List.length_map List.length]
      apply List.length_le_sum_of_one_le
      intro k hk
      obtain ⟨part, hpart, rfl⟩ := List.mem_map.1 hk
      exact List.length_pos_iff.2 (hparts part hpart).2
    rw [List.length_append]
    exact hlength.trans (Nat.le_add_right _ _)

theorem takes_atLeast (n : Nat) (isClass : Char → Bool) :
    Takes (atLeast n isClass) (single isClass ^ n * (single isClass)∗) := by
  induction n with
  | zero =>
    rw [pow_zero, one_mul]
    exact takes_manyOf isClass
  | succ n ih =>
    rw [pow_succ', mul_assoc]
    exact (takes_oneOf isClass).append ih

theorem Takes.passes_isEmpty (hp : Takes p l) :
    (p ++ textEnd).passes List.isEmpty cs = true ↔ cs ∈ l := by
  refine (hp _ cs).trans ?_
  constructor
  · rintro ⟨part, hpart, rest, rfl, h⟩
    obtain rfl := List.isEmpty_iff.1 (Bool.and_eq_true_iff.1 h).2
    rwa [List.append_nil]
  · exact fun h => ⟨cs, h, [], List.append_nil cs, rfl⟩

/-- Where the start of a text is enough, the end of its last line may be left over. -/
theorem Takes.passes_textEnd (hp : Takes p l) :
    (p ++ textEnd).passes (fun _ => true) cs = true ↔
      cs ∈ l ∨ ∃ part ∈ l, part ++ ['\n'] = cs := by
  refine (hp _ cs).trans ?_
  simp only [passes, Bool.and_true, Bool.or_eq_true, beq_iff_eq]
  constructor
  · rintro ⟨part, hpart, _, rfl, rfl | rfl⟩
    · exact .inl (by rwa [List.append_nil])
    · exact .inr ⟨part, hpart, rfl⟩
  · rintro (h | ⟨part, hpart, rfl⟩)
    · exact ⟨cs, h, [], List.append_nil cs, .inl rfl⟩
    · exact ⟨part, hpart, _, rfl, .inr rfl⟩

theorem mem_mul_kstar : part ∈ l * l∗ ↔
    ∃ parts : List (List Char), parts ≠ [] ∧ (∀ part ∈ parts, part ∈ l) ∧
      parts.flatten = part := by
  constructor
  · rintro ⟨first, hfirst, _, ⟨others, rfl, hothers⟩, rfl⟩
    exact ⟨first :: others, List.cons_ne_nil _ _, List.forall_mem_cons.2 ⟨hfirst, hothers⟩, rfl⟩
  · rintro ⟨parts, hne, hparts, rfl⟩
    cases parts with
    | nil => exact absurd rfl hne
    | cons first others =>
      rw [List.forall_mem_cons] at hparts
      exact Language.append_mem_mul hparts.1 (Language.join_mem_kstar hparts.2)

theorem cons_mem_single_mul {c : Char} :
    c :: cs ∈ single isClass * l ↔ isClass c = true ∧ cs ∈ l := by
  constructor
  · rintro ⟨_, ⟨c', hc', rfl⟩, rest, hrest, heq⟩
    obtain ⟨rfl, rfl⟩ := List.cons.inj heq
    exact ⟨hc', hrest⟩
  · rintro ⟨hc, hcs⟩
    exact ⟨[c], ⟨c, hc, rfl⟩, cs, hcs, rfl⟩

theorem nil_not_mem_single_mul : [] ∉ single isClass * l := by
  rintro ⟨_, ⟨c, -, rfl⟩, rest, -, heq⟩
  cases heq

theorem mem_atLeast_single {n : Nat} : part ∈ single isClass ^ n * (single isClass)∗ ↔
    n ≤ part.length ∧ ∀ c ∈ part, isClass c = true := by
  induction n generalizing part with
  | zero => simp [mem_kstar_single]
  | succ n ih =>
    rw [pow_succ', mul_assoc]
    cases part with
    | nil => simp [nil_not_mem_single_mul]
    | cons c part =>
      rw [cons_mem_single_mul, ih]
      simp [and_left_comm]

/-- Behind any characters of a line, a pattern is looked for everywhere in it. -/
theorem Takes.passes_anyChars (hq : Takes q m) (hline : '\n' ∉ cs) :
    (anyChars ++ q).passes (fun _ => true) cs = true ↔ ∃ part ∈ m, part <:+: cs := by
  refine ((takes_manyOf _).append hq _ cs).trans ?_
  constructor
  · rintro ⟨_, ⟨before, -, part, hpart, rfl⟩, rest, rfl, -⟩
    exact ⟨part, hpart, before, rest, rfl⟩
  · rintro ⟨part, hpart, before, after, rfl⟩
    refine ⟨before ++ part, Language.append_mem_mul (mem_kstar_single.2 ?_) hpart, after, rfl, rfl⟩
    intro c hc
    have hne : c ≠ '\n' := by
      rintro rfl
      exact hline (List.mem_append_left _ (List.mem_append_left _ hc))
    simpa using hne

end FormLogic.Text.Pattern
