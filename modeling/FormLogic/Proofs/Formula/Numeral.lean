import FormLogic.Formula.Token
import FormLogic.Proofs.Binary64.Decimal
import FormLogic.Proofs.Except

namespace FormLogic.Formula

structure Numeral where
  whole : List (Fin 10)
  fraction : Option (List (Fin 10))
  digits_ne : whole ++ fraction.getD [] ≠ []

namespace Numeral

def digitChar (d : Fin 10) : Char := Nat.digitChar d

def ofDigit (d : Nat) : Numeral := ⟨[Fin.ofNat 10 d], none, List.cons_ne_nil _ []⟩

def chars (n : Numeral) : List Char :=
  n.whole.map digitChar ++
    match n.fraction with
    | none => []
    | some ds => '.' :: ds.map digitChar

def digits (n : Numeral) : List (Fin 10) := n.whole ++ n.fraction.getD []

def toRat (n : Numeral) : ℚ :=
  (Decimal.ofDigits (n.digits.map Fin.val) : ℚ) / 10 ^ (n.fraction.getD []).length

def value (n : Numeral) : Binary64 := Token.numberValue n.chars

/-! ### Digits -/

theorem isDigit_digitChar (d : Fin 10) : Token.isDigit (digitChar d) = true := by
  revert d
  decide

theorem asciiDigit?_digitChar (d : Fin 10) : Text.asciiDigit? (digitChar d) = some d.val := by
  revert d
  decide

theorem decimalDigit?_digitChar (d : Fin 10) :
    Text.decimalDigit? (digitChar d) = some d.val := by
  revert d
  decide

theorem digitChar_injective {d d' : Fin 10} (h : digitChar d = digitChar d') : d = d' := by
  have hval := congrArg Text.asciiDigit? h
  rw [asciiDigit?_digitChar, asciiDigit?_digitChar] at hval
  exact Fin.ext (Option.some.inj hval)

theorem isDigit_iff (c : Char) : Token.isDigit c = true ↔ 48 ≤ c.toNat ∧ c.toNat ≤ 57 := by
  unfold Token.isDigit Text.asciiDigit?
  split <;> simp_all

theorem toNat_digitChar (d : Fin 10) : (digitChar d).toNat = 48 + d.val := by
  revert d
  decide

theorem exists_digitChar_eq {c : Char} (h : Token.isDigit c = true) : ∃ d, digitChar d = c := by
  rw [isDigit_iff] at h
  refine ⟨⟨c.toNat - 48, by omega⟩, Char.toNat_inj.1 ?_⟩
  rw [toNat_digitChar]
  change 48 + (c.toNat - 48) = c.toNat
  omega

theorem exists_map_digitChar {cs : List Char} (h : ∀ c ∈ cs, Token.isDigit c = true) :
    ∃ ds : List (Fin 10), ds.map digitChar = cs := by
  induction cs with
  | nil => exact ⟨[], rfl⟩
  | cons c cs ih =>
    obtain ⟨d, rfl⟩ := exists_digitChar_eq (h c List.mem_cons_self)
    obtain ⟨ds, rfl⟩ := ih fun c hc => h c (List.mem_cons_of_mem _ hc)
    exact ⟨d :: ds, rfl⟩

theorem isDigit_of_mem_map {ds : List (Fin 10)} {c : Char} (h : c ∈ ds.map digitChar) :
    Token.isDigit c = true := by
  obtain ⟨d, -, rfl⟩ := List.mem_map.1 h
  exact isDigit_digitChar d

/-- What starts with no digit and no point. -/
def EndsNumeral (cs : List Char) : Prop := ∀ c ∈ cs.head?, Token.isDigit c = false ∧ c ≠ '.'

theorem takeWhile_map_digitChar (ds : List (Fin 10)) (cs : List Char) :
    (ds.map digitChar ++ cs).takeWhile Token.isDigit =
      ds.map digitChar ++ cs.takeWhile Token.isDigit :=
  List.takeWhile_append_of_pos fun _ hc => isDigit_of_mem_map hc

theorem dropWhile_map_digitChar (ds : List (Fin 10)) (cs : List Char) :
    (ds.map digitChar ++ cs).dropWhile Token.isDigit = cs.dropWhile Token.isDigit :=
  List.dropWhile_append_of_pos fun _ hc => isDigit_of_mem_map hc

/-! ### Tokens -/

theorem mem_chars (n : Numeral) {c : Char} (h : c ∈ n.chars) :
    Token.isDigit c = true ∨ c = '.' := by
  rcases List.mem_append.1 h with h | h
  · exact .inl (isDigit_of_mem_map h)
  · cases hf : n.fraction with
    | none => simp [hf] at h
    | some ds =>
      rw [hf] at h
      rcases List.mem_cons.1 h with rfl | h
      · exact .inr rfl
      · exact .inl (isDigit_of_mem_map h)

theorem exists_chars_eq_of_spanNumber? {cs lexeme rest : List Char}
    (h : Token.spanNumber? cs = some (lexeme, rest)) : ∃ n : Numeral, n.chars = lexeme := by
  obtain ⟨whole, hwhole⟩ :=
    exists_map_digitChar (List.all_eq_true.1 (@List.all_takeWhile _ Token.isDigit cs))
  unfold Token.spanNumber? at h
  simp only at h
  split at h
  · next r hr =>
    obtain ⟨ds, hds⟩ :=
      exists_map_digitChar (List.all_eq_true.1 (@List.all_takeWhile _ Token.isDigit r))
    split at h
    · exact absurd h (by simp)
    · next hne =>
      rw [Option.some.injEq, Prod.mk.injEq] at h
      rw [← hwhole, ← hds] at hne
      refine ⟨⟨whole, some ds, by simpa using hne⟩, ?_⟩
      rw [← h.1, ← hwhole, ← hds]
      rfl
  · split at h
    · exact absurd h (by simp)
    · next hne =>
      rw [Option.some.injEq, Prod.mk.injEq] at h
      rw [← hwhole] at hne
      refine ⟨⟨whole, none, by simpa using hne⟩, ?_⟩
      rw [← h.1, ← hwhole, chars, List.append_nil]

/-- A number is split off from every text that starts with a numeral, and is no shorter. -/
theorem exists_spanNumber? (n : Numeral) (cs : List Char) : ∃ lexeme rest,
    Token.spanNumber? (n.chars ++ cs) = some (lexeme, rest) ∧
      n.chars.length ≤ lexeme.length := by
  obtain ⟨whole, fraction, hne⟩ := n
  cases fraction with
  | none =>
    have hw : whole.map digitChar ≠ [] := by simpa using hne
    simp only [chars, List.append_nil, Token.spanNumber?, takeWhile_map_digitChar,
      dropWhile_map_digitChar]
    split
    · rw [if_neg (by simp [hw])]
      exact ⟨_, _, rfl, by simp⟩
    · rw [if_neg (by simp [hw])]
      exact ⟨_, _, rfl, by simp⟩
  | some ds =>
    have hdigits : ¬(whole.map digitChar = [] ∧
        ds.map digitChar ++ cs.takeWhile Token.isDigit = []) := by
      rintro ⟨hw, hds⟩
      have hfraction := (List.append_eq_nil_iff.1 hds).1
      exact hne (by simp [List.map_eq_nil_iff.1 hw, List.map_eq_nil_iff.1 hfraction])
    have htake : ('.' :: (ds.map digitChar ++ cs)).takeWhile Token.isDigit = [] := rfl
    have hdrop : ('.' :: (ds.map digitChar ++ cs)).dropWhile Token.isDigit =
        '.' :: (ds.map digitChar ++ cs) := rfl
    simp only [chars, List.append_assoc, List.cons_append, Token.spanNumber?,
      takeWhile_map_digitChar, dropWhile_map_digitChar, htake, hdrop, List.append_nil]
    rw [if_neg hdigits]
    exact ⟨_, _, rfl, by simp⟩

/-- A number is as long as it can be in front of a text: no longer numeral starts where it does. -/
def IsLongest (lexeme rest : List Char) : Prop :=
  ∀ n : Numeral, n.chars <+: lexeme ++ rest → n.chars.length ≤ lexeme.length

/-- What is split off as a number is a numeral that is as long as it can be, and such a numeral is
split off. -/
theorem spanNumber?_eq_some_iff {cs lexeme rest : List Char} :
    Token.spanNumber? cs = some (lexeme, rest) ↔
      lexeme ++ rest = cs ∧ (∃ n : Numeral, n.chars = lexeme) ∧ IsLongest lexeme rest := by
  constructor
  · intro h
    have hcs := Token.spanNumber?_eq_append h
    refine ⟨hcs, exists_chars_eq_of_spanNumber? h, ?_⟩
    rintro n ⟨tail, htail⟩
    obtain ⟨lexeme', rest', hspan, hle⟩ := n.exists_spanNumber? tail
    rw [htail, hcs, h] at hspan
    cases hspan
    exact hle
  · rintro ⟨rfl, ⟨n, rfl⟩, hlongest⟩
    obtain ⟨lexeme, rest', hspan, hle⟩ := n.exists_spanNumber? rest
    obtain ⟨n', rfl⟩ := exists_chars_eq_of_spanNumber? hspan
    have happend := Token.spanNumber?_eq_append hspan
    have hge := hlongest n' ⟨rest', happend⟩
    obtain ⟨hlexeme, rfl⟩ := List.append_inj happend (Nat.le_antisymm hge hle)
    rw [hspan, hlexeme]

theorem isLongest_of_endsNumeral (n : Numeral) {cs : List Char} (h : EndsNumeral cs) :
    IsLongest n.chars cs := by
  intro n' hstart
  by_contra hlonger
  rcases List.prefix_or_prefix_of_prefix hstart (List.prefix_append _ _) with hle | hle
  · exact hlonger hle.length_le
  · obtain ⟨tail, htail⟩ := hle
    rw [← htail, List.prefix_append_right_inj] at hstart
    cases tail with
    | nil =>
      rw [List.append_nil] at htail
      exact hlonger (htail ▸ le_rfl)
    | cons c tail =>
      obtain ⟨rest, rfl⟩ := hstart
      have hc : c ∈ n'.chars := by simp [← htail]
      obtain ⟨hnodigit, hnopoint⟩ := h c (by simp)
      rcases n'.mem_chars hc with hdigit | rfl
      · rw [hnodigit] at hdigit
        cases hdigit
      · exact hnopoint rfl

theorem map_digitChar_injective {ds ds' : List (Fin 10)}
    (h : ds.map digitChar = ds'.map digitChar) : ds = ds' :=
  List.map_injective_iff.2 (fun _ _ => digitChar_injective) h

theorem takeWhile_chars (n : Numeral) :
    n.chars.takeWhile Token.isDigit = n.whole.map digitChar := by
  rw [chars, takeWhile_map_digitChar]
  split
  · exact List.append_nil _
  · exact List.append_nil _

theorem chars_injective {n n' : Numeral} (h : n.chars = n'.chars) : n = n' := by
  have hwhole : n.whole = n'.whole := by
    apply map_digitChar_injective
    rw [← takeWhile_chars, ← takeWhile_chars, h]
  obtain ⟨whole, fraction, hne⟩ := n
  obtain ⟨whole', fraction', hne'⟩ := n'
  obtain rfl : whole = whole' := hwhole
  have hfraction : fraction = fraction' := by
    have hrest := List.append_cancel_left h
    cases fraction with
    | none => cases fraction' with
      | none => rfl
      | some ds' => cases hrest
    | some ds => cases fraction' with
      | none => cases hrest
      | some ds' => rw [map_digitChar_injective (List.cons.inj hrest).2]
  subst hfraction
  rfl

/-! ### Reading -/

def decimal (n : Numeral) (negative : Bool) : Decimal :=
  .ofParts negative (n.whole.map Fin.val) ((n.fraction.getD []).map Fin.val) 0

def decimalAt (n : Numeral) (negative : Bool) (exponent : Int) : Decimal :=
  .ofParts negative (n.whole.map Fin.val) ((n.fraction.getD []).map Fin.val) exponent

theorem spanSign_of_head {cs : List Char} (h : ∀ c ∈ cs.head?, c ≠ '-' ∧ c ≠ '+') :
    Decimal.spanSign cs = (false, cs) := by
  unfold Decimal.spanSign
  split
  · exact absurd rfl (h '-' (by simp)).1
  · exact absurd rfl (h '+' (by simp)).2
  · rfl

theorem chars_ne_nil (n : Numeral) : n.chars ≠ [] := by
  obtain ⟨whole, fraction, hne⟩ := n
  cases fraction with
  | none => simpa [chars] using hne
  | some ds => simp [chars]

theorem spanSign_chars_append (n : Numeral) (cs : List Char) :
    Decimal.spanSign (n.chars ++ cs) = (false, n.chars ++ cs) := by
  apply spanSign_of_head
  intro c hc
  rw [List.head?_append_of_ne_nil _ n.chars_ne_nil] at hc
  rcases n.mem_chars (List.mem_of_mem_head? hc) with h | rfl
  · constructor <;> rintro rfl <;> exact absurd h (by decide)
  · decide

theorem spanSign_chars (n : Numeral) : Decimal.spanSign n.chars = (false, n.chars) := by
  simpa using n.spanSign_chars_append []

section
variable {digit? : Char → Option Nat} (hdigit : ∀ d, digit? (digitChar d) = some d.val)
  (hpoint : digit? '.' = none)
include hdigit

theorem spanDigits_map_digitChar (ds : List (Fin 10)) {cs : List Char}
    (h : ∀ c ∈ cs.head?, digit? c = none) :
    Decimal.spanDigits digit? (ds.map digitChar ++ cs) = (ds.map Fin.val, cs) := by
  induction ds with
  | nil =>
    cases cs with
    | nil => rfl
    | cons c cs => simp [Decimal.spanDigits, h c (by simp)]
  | cons d ds ih => simp [Decimal.spanDigits, hdigit, ih]

include hpoint

/-- A numeral behind a sign is read to its end, and what follows it is read as an exponent. -/
theorem read?_append (n : Numeral) {negative : Bool} {cs rest : List Char}
    (h : Decimal.spanSign cs = (negative, n.chars ++ rest))
    (hrest : ∀ c ∈ rest.head?, digit? c = none ∧ c ≠ '.') :
    Decimal.read? digit? cs =
      (Decimal.readExponent? digit? rest).map (n.decimalAt negative) := by
  have hdigits : ∀ c ∈ rest.head?, digit? c = none := fun c hc => (hrest c hc).1
  obtain ⟨whole, fraction, hne⟩ := n
  cases fraction with
  | none =>
    have hspan : Decimal.spanDigits digit? (whole.map digitChar ++ rest) =
        (whole.map Fin.val, rest) :=
      spanDigits_map_digitChar hdigit whole hdigits
    have hfraction : Decimal.spanFraction digit? rest = ([], rest) := by
      unfold Decimal.spanFraction
      split
      · exact absurd rfl (hrest '.' rfl).2
      · rfl
    have hw : whole.map Fin.val ≠ [] := by simpa using hne
    simp only [chars, List.append_nil] at h
    simp only [Decimal.read?, h, hspan, hfraction]
    rw [if_neg (by simp [hw])]
    rfl
  | some ds =>
    have hspan : Decimal.spanDigits digit?
        (whole.map digitChar ++ '.' :: (ds.map digitChar ++ rest)) =
          (whole.map Fin.val, '.' :: (ds.map digitChar ++ rest)) :=
      spanDigits_map_digitChar hdigit whole (by simpa using hpoint)
    have hspan' : Decimal.spanDigits digit? (ds.map digitChar ++ rest) = (ds.map Fin.val, rest) :=
      spanDigits_map_digitChar hdigit ds hdigits
    simp only [chars, List.append_assoc, List.cons_append] at h
    simp only [Decimal.read?, h, hspan, Decimal.spanFraction, hspan']
    rw [if_neg (by simpa using hne)]
    rfl

/-- A numeral behind a sign is read as the decimal that it stands for. -/
theorem read?_of_spanSign (n : Numeral) {negative : Bool} {cs : List Char}
    (h : Decimal.spanSign cs = (negative, n.chars)) :
    Decimal.read? digit? cs = some (n.decimal negative) := by
  rw [read?_append hdigit hpoint n (by rwa [List.append_nil]) (by simp)]
  rfl

end

theorem value_eq (n : Numeral) : n.value = (n.decimal false).toBinary64 := by
  rw [value, Token.numberValue,
    read?_of_spanSign asciiDigit?_digitChar (by decide) n n.spanSign_chars]
  rfl

theorem toRat_decimalAt (n : Numeral) (negative : Bool) (exponent : Int) :
    (n.decimalAt negative exponent).toRat = Binary64.signed negative (n.toRat * 10 ^ exponent) := by
  rw [decimalAt, Decimal.ofParts, Decimal.toRat, toRat, digits, List.length_map,
    ← List.map_append, zpow_sub₀ (by norm_num), zpow_natCast]
  congr 1
  ring

theorem toRat_decimal (n : Numeral) : (n.decimal false).toRat = n.toRat := by
  rw [show n.decimal false = n.decimalAt false 0 from rfl, toRat_decimalAt, zpow_zero, mul_one]
  rfl

/-- A numeral is read as the double that its exact value is rounded to. -/
theorem value_isRounded (n : Numeral) : Binary64.IsRounded n.toRat n.value := by
  rw [value_eq, ← toRat_decimal]
  exact Decimal.toBinary64_isRounded _

/-! ### Range -/

theorem ofDigits_lt (ds : List (Fin 10)) :
    Decimal.ofDigits (ds.map Fin.val) < 10 ^ ds.length := by
  induction ds using List.reverseRecOn with
  | nil => simp
  | append_singleton ds d ih =>
    rw [List.map_append, List.map_singleton, Decimal.ofDigits_concat, List.length_append,
      List.length_singleton, pow_succ]
    have := d.isLt
    omega

theorem toRat_nonneg (n : Numeral) : 0 ≤ n.toRat :=
  div_nonneg (Nat.cast_nonneg _) (pow_nonneg (by norm_num) _)

/-- The digits in front of the point bound a numeral. -/
theorem toRat_lt (n : Numeral) : n.toRat < 10 ^ n.whole.length := by
  have hpow : (0 : ℚ) < 10 ^ (n.fraction.getD []).length := pow_pos (by norm_num) _
  have hdigits : (Decimal.ofDigits (n.digits.map Fin.val) : ℚ) < 10 ^ n.digits.length := by
    exact_mod_cast ofDigits_lt n.digits
  rw [toRat, div_lt_iff₀ hpow, ← pow_add, ← List.length_append]
  exact hdigits

theorem isFinite_value {n : Numeral} (h : n.toRat < Binary64.overflow) :
    n.value.isFinite = true := by
  have hrounded := n.value_isRounded
  cases hvalue : n.value with
  | finite x => rfl
  | nan =>
    rw [hvalue] at hrounded
    exact hrounded.elim
  | infinite negative =>
    rw [hvalue] at hrounded
    have hle : Binary64.overflow ≤ |n.toRat| := hrounded.1
    rw [abs_of_nonneg n.toRat_nonneg] at hle
    exact absurd h (not_lt.2 hle)

theorem ten_pow_lt_overflow : (10 : ℚ) ^ 300 < Binary64.overflow := by
  have hten : (10 : ℚ) ^ 300 ≤ 2 ^ 1000 := by
    calc (10 : ℚ) ^ 300 = (10 ^ 3) ^ 100 := by rw [← pow_mul]
      _ ≤ (2 ^ 10) ^ 100 := pow_le_pow_left₀ (by norm_num) (by norm_num) _
      _ = 2 ^ 1000 := by rw [← pow_mul]
  have hsmall : (2 : ℚ) ^ 970 ≤ 2 ^ 1000 := pow_le_pow_right₀ (by norm_num) (by norm_num)
  have hlarge : (2 : ℚ) ^ 1000 + 2 ^ 1000 < 2 ^ 1024 := by
    rw [← two_mul, ← pow_succ']
    exact pow_lt_pow_right₀ (by norm_num) (by norm_num)
  rw [Binary64.overflow, lt_sub_iff_add_lt]
  exact (add_le_add hten hsmall).trans_lt hlarge

theorem isFinite_value_of_length {n : Numeral} (h : n.whole.length ≤ 300) :
    n.value.isFinite = true := by
  apply isFinite_value
  calc n.toRat < 10 ^ n.whole.length := n.toRat_lt
    _ ≤ 10 ^ 300 := pow_le_pow_right₀ (by norm_num) h
    _ < Binary64.overflow := ten_pow_lt_overflow

/-! ### Digits of whole numbers -/

theorem ofDigits_append (ds ds' : List Nat) : Decimal.ofDigits (ds ++ ds') =
    Decimal.ofDigits ds * 10 ^ ds'.length + Decimal.ofDigits ds' := by
  induction ds' using List.reverseRecOn with
  | nil => simp
  | append_singleton ds' d ih =>
    rw [← List.append_assoc, Decimal.ofDigits_concat, Decimal.ofDigits_concat, ih,
      List.length_append, List.length_singleton, pow_succ]
    ring

theorem ofDigits_zeros (k : Nat) : Decimal.ofDigits (List.replicate k 0) = 0 := by
  induction k with
  | zero => rfl
  | succ k ih => rw [List.replicate_succ', Decimal.ofDigits_concat, ih]

theorem isDigit_of_mem_toDigits {m : Nat} {c : Char} (h : c ∈ Nat.toDigits 10 m) :
    Token.isDigit c = true := by
  have hdigit := Nat.isDigit_of_mem_toDigits (by decide) (by decide) h
  rw [Char.isDigit_iff_toNat] at hdigit
  rw [isDigit_iff]
  exact hdigit

theorem exists_digits (m : Nat) : ∃ ds : List (Fin 10),
    ds.map digitChar = Nat.toDigits 10 m ∧ Decimal.ofDigits (ds.map Fin.val) = m := by
  obtain ⟨ds, hds⟩ := exists_map_digitChar fun c (hc : c ∈ Nat.toDigits 10 m) =>
    isDigit_of_mem_toDigits hc
  refine ⟨ds, hds, ?_⟩
  have hvalue : Nat.ofDigitChars 10 (ds.map digitChar) 0 = m := by
    rw [hds, Nat.ofDigitChars_ten_toDigits]
  rw [← hvalue, Nat.ofDigitChars_eq_foldl, Decimal.ofDigits, List.foldl_map, List.foldl_map]
  congr 1
  funext k d
  change 10 * k + d.val = 10 * k + ((digitChar d).toNat - 48)
  rw [toNat_digitChar, Nat.add_sub_cancel_left]

theorem exists_digits_padded (width m : Nat) : ∃ ds : List (Fin 10),
    ds.map digitChar = Text.padded width m ∧ ds ≠ [] ∧ Decimal.ofDigits (ds.map Fin.val) = m := by
  obtain ⟨ds, hds, hvalue⟩ := exists_digits m
  have hne : ds ≠ [] := by
    rintro rfl
    exact Nat.toDigits_ne_nil hds.symm
  let zeros := List.replicate (width - (Nat.toDigits 10 m).length) (0 : Fin 10)
  refine ⟨zeros ++ ds, ?_, by simp [hne], ?_⟩
  · rw [List.map_append, hds, List.map_replicate]
    rfl
  · rw [List.map_append, ofDigits_append, List.map_replicate, Fin.val_zero, ofDigits_zeros,
      hvalue, Nat.zero_mul, Nat.zero_add]

theorem isDigit_of_mem_padded {width m : Nat} {c : Char} (h : c ∈ Text.padded width m) :
    Token.isDigit c = true := by
  obtain ⟨ds, hds, -⟩ := exists_digits_padded width m
  rw [← hds] at h
  exact isDigit_of_mem_map h

end Numeral

/-! ### Numbers in texts -/

def OfNumerals (ts : List Token) : Prop :=
  ∀ lexeme, Token.number lexeme ∈ ts → ∃ n : Numeral, n.chars = lexeme

theorem OfNumerals.of_append {ts ts' : List Token} (h : OfNumerals (ts ++ ts')) : OfNumerals ts' :=
  fun lexeme hmem => h lexeme (List.mem_append_right ts hmem)

theorem ofChar?_ne_number (c : Char) (lexeme : List Char) :
    Token.ofChar? c ≠ some (.number lexeme) := by
  unfold Token.ofChar?
  split <;> simp

theorem ofNumerals_of_scanFrom {position : Nat} {cs : List Char} {ts : List Token}
    (h : Token.scanFrom position cs = .ok ts) : OfNumerals ts := by
  intro lexeme hmem
  fun_induction Token.scanFrom position cs generalizing ts with
  | case1 =>
    obtain rfl := Except.ok.inj h
    cases hmem
  | case2 position c rest hblank ih => exact ih h hmem
  | case3 position c rest hblank lexeme' rest' hfound ih =>
    obtain ⟨ts', hts', rfl⟩ := exists_of_map_eq_ok h
    rcases List.mem_cons.1 hmem with heq | hmem
    · cases heq
      exact Numeral.exists_chars_eq_of_spanNumber? hfound
    · exact ih hts' hmem
  | case4 position c rest hblank hnone t ht ih =>
    obtain ⟨ts', hts', rfl⟩ := exists_of_map_eq_ok h
    rcases List.mem_cons.1 hmem with rfl | hmem
    · exact absurd ht (ofChar?_ne_number c lexeme)
    · exact ih hts' hmem
  | case5 => cases h

end FormLogic.Formula
