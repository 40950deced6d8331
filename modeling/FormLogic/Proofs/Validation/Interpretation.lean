import FormLogic.Proofs.Binary64.Order
import FormLogic.Proofs.Schema.Validation

namespace FormLogic

/-! ### What is said of an answer -/

def Value.IsAbsent (v : Value) : Prop := v = .null ∨ v = .text "" ∨ v = .list [] ∨ v = .tuple []

def FieldType.textual : List FieldType := [.text, .textarea, .select, .radio]

/-- What a field type makes of an answer that it takes. -/
inductive FieldType.Takes : FieldType → Value → Value → Prop
  | text {type : FieldType} (htype : type ∈ textual) (s : String) : Takes type (.text s) (.text s)
  | number {v : Value} {x : Binary64} (h : v.number? = .ok (some x)) : Takes .number v (.float x)
  | dayText (s : String) : Takes .date (.text s) (.text s)
  | date (d : Date) : Takes .date (.date d) (.date d)
  | moment (m : Moment) : Takes .date (.moment m) (.moment m)
  | bool (b : Bool) : Takes .checkbox (.bool b) (.bool b)
  | list {items : List Value} (h : ∀ v ∈ items, ∃ s, v = .text s) :
      Takes .checkbox (.list items) (.list items)
  | tuple {items : List Value} (h : ∀ v ∈ items, ∃ s, v = .text s) :
      Takes .checkbox (.tuple items) (.list items)

/-- A message of its own, if there is one, and otherwise a default. -/
inductive MessageOr (isOwn : String → Prop) (default : String) : String → Prop
  | own {message : String} (h : isOwn message) : MessageOr isOwn default message
  | default (h : ∀ message, ¬isOwn message) : MessageOr isOwn default default

namespace Rule

/-- A value does not do what a rule asks. Lengths are counted in characters, and bounds are
included. -/
@[mk_iff]
inductive FailsOn (rule : Rule) : Value → Prop
  | tooShort {bound : Binary64} {s : String} (hkind : rule.kind = .minLength)
      (hvalue : rule.value = some bound) (h : ¬bound.IsLowerBound s.length) :
      FailsOn rule (.text s)
  | tooLong {bound : Binary64} {s : String} (hkind : rule.kind = .maxLength)
      (hvalue : rule.value = some bound) (h : ¬bound.IsUpperBound s.length) :
      FailsOn rule (.text s)
  | noAddress {s : String} (hkind : rule.kind = .email) (h : Text.Email.isAddress s = false) :
      FailsOn rule (.text s)
  | weak {s : String} (hkind : rule.kind = .password) (h : Text.Password.isStrong s = false) :
      FailsOn rule (.text s)
  | tooSmall {bound : Binary64} {x : Binary64.Finite} (hkind : rule.kind = .min)
      (hvalue : rule.value = some bound) (h : ¬bound.IsLowerBound x.toRat) :
      FailsOn rule (.float (.finite x))
  | tooLarge {bound : Binary64} {x : Binary64.Finite} (hkind : rule.kind = .max)
      (hvalue : rule.value = some bound) (h : ¬bound.IsUpperBound x.toRat) :
      FailsOn rule (.float (.finite x))

def defaultMessage (rule : Rule) : String :=
  let shown := (rule.value.map Binary64.display).getD ""
  match rule.kind with
  | .required => ""
  | .minLength => s!"Must contain at least {shown} character(s)"
  | .maxLength => s!"Must contain at most {shown} character(s)"
  | .email => "Invalid email format"
  | .password => "Password must be at least 8 characters and contain a number"
  | .min => s!"Must be greater than or equal to {shown}"
  | .max => s!"Must be less than or equal to {shown}"

def HasMessage (rule : Rule) (message : String) : Prop :=
  rule.message = some message ∧ message ≠ ""

/-- A rule that is not passed over refuses a value of a field type. -/
inductive Refuses (type : FieldType) (v : Value) (rule : Rule) : Outcome → Prop
  | intro {message : String} (hkind : rule.kind ≠ .required) (huse : rule.IsOfUse type)
      (hfails : rule.FailsOn v) (hmessage : MessageOr rule.HasMessage rule.defaultMessage message) :
      Refuses type v rule (.rejected (.rule rule.kind) message)

def TellsMissing (rule : Rule) (message : String) : Prop :=
  rule.kind = .required ∧ rule.HasMessage message

end Rule

namespace Field

/-- The outcome that the definition of a field gives an answer under which nothing was entered. -/
inductive JudgesAbsent (f : Field) (v : Value) : Outcome → Prop
  | notCalculated (hderived : f.isDerived = true) :
      JudgesAbsent f v (.rejected .notCalculated "Value has not been calculated")
  | missing {message : String} (hentered : f.isDerived = false) (hrequired : f.required = true)
      (hmessage : MessageOr (FirstAmong Rule.TellsMissing f.rules.reverse) "This field is required"
        message) :
      JudgesAbsent f v (.rejected .missing message)
  | optional (hentered : f.isDerived = false) (hoptional : f.required = false) :
      JudgesAbsent f v (.accepted v)

/-- The outcome that the definition of a field gives an answer that was entered. -/
inductive JudgesPresent (f : Field) (v : Value) : Outcome → Prop
  | wrongType (htype : ∀ cleaned, ¬f.type.Takes v cleaned) :
      JudgesPresent f v (.rejected .wrongType f.type.typeMessage)
  | refused {cleaned : Value} {outcome : Outcome} (htakes : f.type.Takes v cleaned)
      (hfirst : FirstAmong (Rule.Refuses f.type cleaned) f.rules outcome) :
      JudgesPresent f v outcome
  | passed {cleaned : Value} (htakes : f.type.Takes v cleaned)
      (hrules : ∀ rule ∈ f.rules, ∀ outcome, ¬rule.Refuses f.type cleaned outcome) :
      JudgesPresent f v (.accepted cleaned)

/-- The outcome that the definition of a field gives an answer. -/
inductive Judges (f : Field) (v : Value) (outcome : Outcome) : Prop
  | absent (habsent : v.IsAbsent) (h : f.JudgesAbsent v outcome)
  | present (hpresent : ¬v.IsAbsent) (h : f.JudgesPresent v outcome)

end Field

/-! ### Empty answers and types -/

theorem Value.isEmpty_iff (v : Value) : v.isEmpty = true ↔ v.IsAbsent := by
  unfold IsAbsent
  cases v <;> simp [isEmpty]

namespace FieldType

theorem all_isTextValue_iff (items : List Value) :
    items.all isTextValue = true ↔ ∀ v ∈ items, ∃ s, v = .text s := by
  have htext : ∀ v, isTextValue v = true ↔ ∃ s, v = .text s := by
    intro v
    cases v <;> simp [isTextValue]
  simp only [List.all_eq_true, htext]

theorem clean?_eq_some_iff (type : FieldType) (v cleaned : Value) :
    type.clean? v = .ok (some cleaned) ↔ type.Takes v cleaned := by
  constructor
  · intro h
    cases type with
    | number =>
      obtain ⟨x?, hx?, hsome⟩ := exists_of_map_eq_ok h
      obtain ⟨x, rfl, rfl⟩ := Option.map_eq_some_iff.1 hsome
      exact .number hx?
    | date =>
      cases v <;> simp only [clean?, Except.ok.injEq, Option.some.injEq, reduceCtorEq] at h
      · subst h; exact .dayText _
      · subst h; exact .date _
      · subst h; exact .moment _
    | checkbox =>
      cases v <;> simp only [clean?, Except.ok.injEq, Option.some.injEq,
        Option.ite_none_right_eq_some, all_isTextValue_iff, reduceCtorEq] at h
      · subst h; constructor
      · obtain ⟨hitems, rfl⟩ := h; exact .list hitems
      · obtain ⟨hitems, rfl⟩ := h; exact .tuple hitems
    | _ =>
      cases v <;> simp [clean?, isTextValue] at h
      subst h
      exact .text (by decide) _
  · rintro (⟨htype, s⟩ | h | s | d | m | b | h | h)
    · simp only [textual, List.mem_cons, List.not_mem_nil, or_false] at htype
      rcases htype with rfl | rfl | rfl | rfl <;> rfl
    · simp only [clean?, h]
      rfl
    · rfl
    · rfl
    · rfl
    · rfl
    · simp only [clean?, (all_isTextValue_iff _).2 h, if_true]
    · simp only [clean?, (all_isTextValue_iff _).2 h, if_true]

/-- What a type takes is a text if rules on texts apply to it, and a finite number if rules on
numbers do. -/
theorem Takes.of_appliesTo {type : FieldType} {v cleaned : Value} (h : type.Takes v cleaned)
    {kind : RuleKind} (happlies : kind.appliesTo type = true) :
    (kind ∈ [.minLength, .maxLength, .email, .password] ∧ ∃ s, cleaned = .text s) ∨
      (kind ∈ [.min, .max] ∧ ∃ x : Binary64.Finite, cleaned = .float (.finite x)) := by
  cases h with
  | text htype s =>
    refine .inl ⟨?_, s, rfl⟩
    simp only [textual, List.mem_cons, List.not_mem_nil, or_false] at htype
    rcases htype with rfl | rfl | rfl | rfl <;> cases kind <;> first | decide | cases happlies
  | number hnumber =>
    refine .inr ⟨?_, ?_⟩
    · cases kind <;> first | decide | cases happlies
    · obtain ⟨x, rfl⟩ := Binary64.exists_of_isFinite (Value.isFinite_of_number? hnumber)
      exact ⟨x, rfl⟩
  -- no rule on values applies to days and choices
  | _ => cases kind <;> cases happlies

end FieldType

/-! ### Checks -/

theorem messageOr_iff {own? : Option String} {isOwn : String → Prop}
    (h : ∀ message, own? = some message ↔ isOwn message) (default message : String) :
    MessageOr isOwn default message ↔ own?.getD default = message := by
  cases own? with
  | none =>
    have hnone : ∀ message, ¬isOwn message := by simp [← h]
    constructor
    · rintro (hown | -)
      · exact absurd hown (hnone message)
      · rfl
    · rintro rfl
      exact .default hnone
  | some own =>
    constructor
    · rintro (hown | hnone)
      · exact Option.some.inj ((h message).2 hown)
      · exact absurd ((h own).1 rfl) (hnone own)
    · rintro rfl
      exact .own ((h own).1 rfl)

theorem Rule.ownMessage?_eq_some_iff (rule : Rule) (message : String) :
    rule.ownMessage? = some message ↔ rule.HasMessage message := by
  simp [ownMessage?, HasMessage, Option.filter_eq_some_iff]

namespace Test
variable {rule : Rule} {test : Test}

theorem of_ofRule? (h : ofRule? rule = some test) :
    rule.kind ≠ .required ∧ (rule.kind.needsValue = true → rule.value ≠ none) ∧
      test.kind = rule.kind ∧ test.defaultMessage = rule.defaultMessage := by
  obtain ⟨kind, value, message⟩ := rule
  cases kind <;> cases value <;> cases h <;>
    exact ⟨by simp, by simp [RuleKind.needsValue], rfl, rfl⟩

theorem exists_ofRule? (hkind : rule.kind ≠ .required)
    (hvalue : rule.kind.needsValue = true → rule.value ≠ none) :
    ∃ test, ofRule? rule = some test := by
  obtain ⟨kind, value, message⟩ := rule
  cases kind <;> cases value <;> simp_all [ofRule?, RuleKind.needsValue]

/-- The test of a rule that applies to a field type is passed by the values of the type on which the
rule does not fail. -/
theorem holds_iff {type : FieldType} {v cleaned : Value} (htakes : type.Takes v cleaned)
    (happlies : rule.kind.appliesTo type = true) (h : ofRule? rule = some test) :
    test.holds cleaned = true ↔ ¬rule.FailsOn cleaned := by
  obtain ⟨kind, value, message⟩ := rule
  rcases htakes.of_appliesTo happlies with ⟨hkind, s, rfl⟩ | ⟨hkind, x, rfl⟩
  · simp only [List.mem_cons, List.not_mem_nil, or_false] at hkind
    rcases hkind with rfl | rfl | rfl | rfl <;> cases value <;> cases h <;>
      simp [holds, Rule.failsOn_iff, Binary64.leCount_iff, Binary64.countLe_iff]
  · simp only [List.mem_cons, List.not_mem_nil, or_false] at hkind
    rcases hkind with rfl | rfl <;> cases value <;> cases h <;>
      simp [holds, Rule.failsOn_iff, Binary64.le_finite_iff,
        Binary64.finite_le_iff]

end Test

namespace Check

def refusal? (v : Value) (c : Check) : Option Outcome :=
  if c.test.holds v then none else some (.rejected (.rule c.test.kind) c.message)

/-- The check of a rule refuses what the rule refuses, with the same message. -/
theorem bind_refusal?_eq_some_iff {type : FieldType} {v cleaned : Value}
    (htakes : type.Takes v cleaned) (rule : Rule) (outcome : Outcome) :
    (ofRule? type rule).bind (refusal? cleaned) = some outcome ↔
      rule.Refuses type cleaned outcome := by
  have hmessages := messageOr_iff rule.ownMessage?_eq_some_iff rule.defaultMessage
  constructor
  · intro h
    obtain ⟨c, hc, hrefusal⟩ := Option.bind_eq_some_iff.1 h
    obtain ⟨happlies, hmap⟩ := Option.ite_none_right_eq_some.1 hc
    obtain ⟨test, htest, rfl⟩ := Option.map_eq_some_iff.1 hmap
    obtain ⟨hkind, hvalue, hsame, hdefault⟩ := Test.of_ofRule? htest
    obtain ⟨hfails, houtcome⟩ := Option.ite_none_left_eq_some.1 hrefusal
    obtain rfl := Option.some.inj houtcome
    rw [Test.holds_iff htakes happlies htest, not_not] at hfails
    rw [hdefault, hsame]
    exact .intro hkind (.inr ⟨happlies, hvalue⟩) hfails ((hmessages _).2 rfl)
  · rintro ⟨hkind, huse, hfails, hmessage⟩
    obtain ⟨happlies, hvalue⟩ := huse.resolve_left hkind
    obtain ⟨test, htest⟩ := Test.exists_ofRule? hkind hvalue
    obtain ⟨-, -, hsame, hdefault⟩ := Test.of_ofRule? htest
    have hholds : ¬test.holds cleaned = true := by
      rw [Test.holds_iff htakes happlies htest, not_not]
      exact hfails
    rw [ofRule?, if_pos happlies, htest, Option.map_some, Option.bind_some, refusal?, if_neg hholds,
      hsame, hdefault, (hmessages _).1 hmessage]

end Check

/-! ### Validators -/

namespace Validator

/-- What is tried is told of by its first refusal. -/
theorem tryChecks_eq (v : Value) (checks : List Check) :
    tryChecks v checks = ((checks.filterMap (Check.refusal? v)).head?).getD (.accepted v) := by
  induction checks with
  | nil => rfl
  | cons c cs ih =>
    rw [tryChecks, List.head?_filterMap, List.findSome?_cons, Check.refusal?]
    split
    · rwa [List.head?_filterMap] at ih
    · rfl

theorem eq_of_tryChecks {v w : Value} {checks : List Check}
    (h : tryChecks v checks = .accepted w) : w = v := by
  induction checks with
  | nil => exact (Outcome.accepted.inj h).symm
  | cons c checks ih =>
    rw [tryChecks] at h
    split at h
    · exact ih h
    · cases h

variable (f : Field)

/-- The rules are tried in their order, whatever is passed over. -/
theorem tryChecks_ofField_iff {v cleaned : Value} (htakes : f.type.Takes v cleaned)
    (outcome : Outcome) :
    tryChecks cleaned (ofField f).checks = outcome ↔
      FirstAmong (Rule.Refuses f.type cleaned) f.rules outcome ∨
        (∀ rule ∈ f.rules, ∀ o, ¬rule.Refuses f.type cleaned o) ∧ outcome = .accepted cleaned := by
  have hrefuses := Check.bind_refusal?_eq_some_iff htakes
  have hfirst := findSome?_eq_some_iff_firstAmong hrefuses f.rules
  -- a rule that is passed over has no check, and so it refuses nothing
  have hnone : f.rules.findSome? (fun rule => (Check.ofRule? f.type rule).bind
      (Check.refusal? cleaned)) = none ↔ ∀ rule ∈ f.rules, ∀ o, ¬rule.Refuses f.type cleaned o := by
    rw [List.findSome?_eq_none_iff]
    simp only [← hrefuses, Option.eq_none_iff_forall_ne_some, ne_eq]
  rw [tryChecks_eq, ofField, List.filterMap_filterMap, List.head?_filterMap, ← hnone, ← hfirst]
  cases f.rules.findSome? fun rule => (Check.ofRule? f.type rule).bind (Check.refusal? cleaned) with
  | none => simp [eq_comm]
  | some o => simp

/-- The message for a missing answer is that of the last required rule that has one. -/
theorem requiredMessage_ofField_iff (message : String) :
    MessageOr (FirstAmong Rule.TellsMissing f.rules.reverse) "This field is required" message ↔
      (ofField f).requiredMessage = message := by
  have htells : ∀ (rule : Rule) (message : String),
      (if rule.kind = .required then rule.ownMessage? else none) = some message ↔
        rule.TellsMissing message := by
    intro rule message
    rw [Option.ite_none_right_eq_some, Rule.ownMessage?_eq_some_iff, Rule.TellsMissing]
  -- the last rule of the list is the first of the reversed one
  have hlast : ((f.rules.filter (·.kind = .required)).filterMap Rule.ownMessage?).getLast? =
      f.rules.reverse.findSome? fun rule =>
        if rule.kind = .required then rule.ownMessage? else none := by
    simp [List.filterMap_filter, List.getLast?_filterMap]
  rw [messageOr_iff (findSome?_eq_some_iff_firstAmong htells f.rules.reverse), ofField, hlast]
  rfl

theorem runEmpty_ofField_iff (v : Value) (outcome : Outcome) :
    (ofField f).runEmpty v = outcome ↔ f.JudgesAbsent v outcome := by
  have hderived : (ofField f).field.isDerived = f.isDerived := rfl
  have hrequired : (ofField f).field.required = f.required := rfl
  rw [runEmpty, hderived, hrequired]
  constructor
  · rintro rfl
    split
    · next h => exact .notCalculated h
    · next h =>
      rw [Bool.not_eq_true] at h
      split
      · next hrequired => exact .missing h hrequired ((requiredMessage_ofField_iff f _).2 rfl)
      · next hoptional => exact .optional h (by simpa using hoptional)
  · rintro (h | ⟨h, hrequired, hmessage⟩ | ⟨h, hoptional⟩)
    · rw [if_pos h]
      rfl
    · rw [if_neg (by simp [h]), if_pos hrequired, (requiredMessage_ofField_iff f _).1 hmessage]
    · rw [if_neg (by simp [h]), if_neg (by simp [hoptional])]

theorem clean?_map_iff {v : Value} (h : ¬(f.type = .number ∧ v.IsTooLarge)) (outcome : Outcome) :
    ((f.type.clean? v).map fun
      | none => .rejected .wrongType f.type.typeMessage
      | some cleaned => tryChecks cleaned (ofField f).checks) = .ok outcome ↔
      f.JudgesPresent v outcome := by
  rw [← FieldType.clean?_fails_iff, ← returns_iff_not_fails] at h
  obtain ⟨cleaned?, hclean⟩ := h
  -- a type takes an answer in at most one way
  have htakes : ∀ cleaned, f.type.Takes v cleaned ↔ cleaned? = some cleaned := by
    intro cleaned
    rw [← FieldType.clean?_eq_some_iff, hclean, Except.ok.injEq]
  rw [hclean, Except.map, Except.ok.injEq]
  cases cleaned? with
  | none =>
    constructor
    · rintro rfl
      exact .wrongType fun cleaned h => by cases (htakes cleaned).1 h
    · rintro (- | ⟨h, -⟩ | ⟨h, -⟩)
      · rfl
      · cases (htakes _).1 h
      · cases (htakes _).1 h
  | some cleaned =>
    have hcleaned : f.type.Takes v cleaned := (htakes cleaned).2 rfl
    simp only [tryChecks_ofField_iff f hcleaned]
    constructor
    · rintro (hfirst | ⟨hrules, rfl⟩)
      · exact .refused hcleaned hfirst
      · exact .passed hcleaned hrules
    · rintro (h | ⟨h, hfirst⟩ | ⟨h, hrules⟩)
      · exact absurd hcleaned (h cleaned)
      · cases (htakes _).1 h
        exact .inl hfirst
      · cases (htakes _).1 h
        exact .inr ⟨hrules, rfl⟩

/-- A validator gives an answer that it can read the one outcome that the definition of its field
gives it. -/
theorem run_ofField_iff {v : Value} (h : ¬(f.type = .number ∧ v.IsTooLarge)) (outcome : Outcome) :
    (ofField f).run v = .ok outcome ↔ f.Judges v outcome := by
  rw [run]
  split
  · next hempty =>
    rw [Value.isEmpty_iff] at hempty
    rw [Except.ok.injEq, runEmpty_ofField_iff]
    constructor
    · exact .absent hempty
    · rintro (⟨-, h⟩ | ⟨hpresent, -⟩)
      · exact h
      · exact absurd hempty hpresent
  · next hempty =>
    rw [Value.isEmpty_iff] at hempty
    refine (clean?_map_iff f h outcome).trans ?_
    constructor
    · exact .present hempty
    · rintro (⟨habsent, -⟩ | ⟨-, h⟩)
      · exact absurd habsent hempty
      · exact h

/-- Every field compiles to a validator, if rules may be passed over. The validator gives every
answer an outcome, the one that the definition of the field gives it, but for whole numbers beyond
all doubles under a number field. -/
theorem compile_run_iff_judges {v : Value} (h : f.type = .number → ¬v.IsTooLarge) :
    ∃ val, compile false f = .ok val ∧ (∃ outcome, val.run v = .ok outcome) ∧
      ∀ outcome, val.run v = .ok outcome ↔ f.Judges v outcome := by
  rw [← not_and] at h
  refine ⟨ofField f, compile_false f, ?_, run_ofField_iff f h⟩
  rw [returns_iff_not_fails, run_fails_iff]
  exact h

def nameField : Field where
  id := "name"
  type := .text
  label := "Name"
  required := true
  derivation := none
  rules := [⟨.required, none, some "Who is it?"⟩, ⟨.minLength, none, none⟩,
    ⟨.min, some (.ofInt 9), none⟩, ⟨.maxLength, some (.ofInt 2), some ""⟩,
    ⟨.maxLength, some (.ofInt 1), some "Too long"⟩, ⟨.required, none, some ""⟩]
  choices := none
  defaultValue := .null
  order := 0
  id_ne := by decide
  choices_fit := rfl

/-- The first rule that fails is told of with its bound, as its message is empty, and so is the
only required rule that has a message. -/
theorem compile_run_iff_judges_nameField :
    ∃ val, compile false nameField = .ok val ∧
      val.run (.text "Ann") =
        .ok (.rejected (.rule .maxLength) "Must contain at most 2 character(s)") ∧
      val.run .null = .ok (.rejected .missing "Who is it?") := by
  have hjudges : nameField.Judges (.text "Ann")
      (.rejected (.rule .maxLength) "Must contain at most 2 character(s)") := by
    refine .present (by simp [Value.IsAbsent]) (.refused (.text (by decide) "Ann") ?_)
    refine ⟨nameField.rules.take 3, ⟨.maxLength, some (.ofInt 2), some ""⟩, _, rfl, ?_, ?_⟩
    · have hmessage : Rule.defaultMessage ⟨.maxLength, some (.ofInt 2), some ""⟩ =
          "Must contain at most 2 character(s)" := by
        decide +kernel
      refine .intro (by decide) (.inr (by decide)) (.tooLong rfl rfl ?_) ?_
      · rw [← Binary64.countLe_iff]
        decide +kernel
      · rw [← hmessage]
        exact .default (by simp [Rule.HasMessage])
    -- of the rules before it, one is no rule on values, one has no value and one does not apply
    · rintro rule hrule outcome ⟨hkind, huse, hfails, -⟩
      simp only [nameField, List.take_succ_cons, List.take_zero, List.mem_cons, List.not_mem_nil,
        or_false] at hrule
      rcases hrule with rfl | rfl | rfl
      · exact hkind rfl
      · simp [Rule.failsOn_iff] at hfails
      · simp [Rule.failsOn_iff] at hfails
  have hmissing : nameField.Judges .null (.rejected .missing "Who is it?") := by
    refine .absent (.inl rfl) (.missing rfl rfl (.own ?_))
    refine ⟨nameField.rules.tail.reverse, ⟨.required, none, some "Who is it?"⟩, [], rfl,
      ⟨rfl, rfl, by decide⟩, ?_⟩
    simp [nameField, Rule.TellsMissing, Rule.HasMessage]
  obtain ⟨val, hval, -, htext⟩ := compile_run_iff_judges nameField (v := .text "Ann") nofun
  obtain ⟨val', hval', -, hnull⟩ := compile_run_iff_judges nameField (v := .null) nofun
  obtain rfl := Except.ok.inj (hval.symm.trans hval')
  exact ⟨val, hval, (htext _).2 hjudges, (hnull _).2 hmissing⟩

end Validator
end FormLogic
