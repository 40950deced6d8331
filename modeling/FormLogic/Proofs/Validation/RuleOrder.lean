import FormLogic.Proofs.Schema.Strict

namespace FormLogic

def Field.withRules (f : Field) (rules : List Rule) : Field := { f with rules := rules }

namespace Outcome

/-- Both outcomes accept, with one cleaned value, or neither does. -/
def SameVerdict (o o' : Outcome) : Prop := o'.isAccepted = o.isAccepted ∧ o'.value = o.value

/-- A rejection is kept. Its message can only change if it tells that an answer is missing. -/
def KeptBy (o o' : Outcome) : Prop :=
  ∀ failure message, o = .rejected failure message →
    ∃ message', o' = .rejected failure message' ∧ (failure ≠ .missing → message' = message)

theorem SameVerdict.refl (o : Outcome) : o.SameVerdict o := ⟨rfl, rfl⟩

theorem KeptBy.refl (o : Outcome) : o.KeptBy o := fun _ message h => ⟨message, h, fun _ => rfl⟩

end Outcome

namespace Validator

section
variable (v : Value) (checks : List Check)

theorem isAccepted_tryChecks :
    (tryChecks v checks).isAccepted = checks.all fun c => c.test.holds v := by
  induction checks with
  | nil => rfl
  | cons c checks ih =>
    rw [tryChecks, List.all_cons]
    cases c.test.holds v with
    | true => simpa using ih
    | false => rfl

theorem value_tryChecks :
    (tryChecks v checks).value = if (tryChecks v checks).isAccepted then v else .null := by
  cases h : tryChecks v checks with
  | accepted w =>
    obtain rfl := eq_of_tryChecks h
    rfl
  | rejected failure message => rfl

variable {checks}

/-- The checks that are tried decide as a set. -/
theorem sameVerdict_tryChecks {checks' : List Check} (h : ∀ c, c ∈ checks' ↔ c ∈ checks) :
    (tryChecks v checks).SameVerdict (tryChecks v checks') := by
  have haccepted : (tryChecks v checks').isAccepted = (tryChecks v checks).isAccepted := by
    rw [isAccepted_tryChecks, isAccepted_tryChecks, Bool.eq_iff_iff, List.all_eq_true,
      List.all_eq_true]
    simp only [h]
  exact ⟨haccepted, by rw [value_tryChecks, value_tryChecks, haccepted]⟩

/-- The first check that fails is told of, whatever is tried behind it. -/
theorem tryChecks_append_of_rejected {failure : Failure} {message : String}
    (h : tryChecks v checks = .rejected failure message) (more : List Check) :
    tryChecks v (checks ++ more) = .rejected failure message := by
  induction checks with
  | nil => cases h
  | cons c checks ih =>
    rw [tryChecks] at h
    rw [List.cons_append, tryChecks]
    split at h
    · next hholds => rw [if_pos hholds, ih h]
    · next hfails => rw [if_neg hfails, h]

end

variable {f : Field} {v : Value} {outcome : Outcome}

/-- Other rules give an outcome that is related to the first one, if they do for empty answers and
for cleaned values. -/
theorem exists_run_withRules {related : Outcome → Outcome → Prop} (hrefl : ∀ o, related o o)
    {rules : List Rule}
    (hempty : ∀ v, related ((ofField f).runEmpty v) ((ofField (f.withRules rules)).runEmpty v))
    (hchecks : ∀ v, related (tryChecks v (f.rules.filterMap (Check.ofRule? f.type)))
      (tryChecks v (rules.filterMap (Check.ofRule? f.type))))
    (h : (ofField f).run v = .ok outcome) :
    ∃ outcome', (ofField (f.withRules rules)).run v = .ok outcome' ∧ related outcome outcome' := by
  cases hv : v.isEmpty with
  | true =>
    rw [run, if_pos hv] at h ⊢
    obtain rfl := Except.ok.inj h
    exact ⟨_, rfl, hempty v⟩
  | false =>
    -- the answer is cleaned by the type of the field, whatever its rules are
    rw [run, if_neg (by simp [hv])] at h
    obtain ⟨cleaned?, hclean, rfl⟩ := exists_of_map_eq_ok h
    cases cleaned? with
    | none => exact ⟨_, run_of_clean?_eq_none hv hclean, hrefl _⟩
    | some cleaned => exact ⟨_, run_of_clean?_eq_some hv hclean, hchecks cleaned⟩

/-- Rules have no say in what an empty answer comes to, but for the message that it is missing. -/
theorem runEmpty_withRules (f : Field) (rules : List Rule) (v : Value) :
    (ofField (f.withRules rules)).runEmpty v = (ofField f).runEmpty v ∨
      ∃ message message', (ofField f).runEmpty v = .rejected .missing message ∧
        (ofField (f.withRules rules)).runEmpty v = .rejected .missing message' := by
  by_cases hderived : f.isDerived = true
  · exact .inl ((if_pos hderived).trans (if_pos hderived).symm)
  · by_cases hrequired : f.required = true
    · exact .inr ⟨_, _, (if_neg hderived).trans (if_pos hrequired),
        (if_neg hderived).trans (if_pos hrequired)⟩
    · have haccepted : (ofField f).runEmpty v = .accepted v :=
        (if_neg hderived).trans (if_neg hrequired)
      exact .inl (((if_neg hderived).trans (if_neg hrequired)).trans haccepted.symm)

theorem sameVerdict_runEmpty (rules : List Rule) (v : Value) :
    ((ofField f).runEmpty v).SameVerdict ((ofField (f.withRules rules)).runEmpty v) := by
  rcases runEmpty_withRules f rules v with h | ⟨message, message', h, h'⟩
  · rw [h]
    exact .refl _
  · rw [h, h']
    exact ⟨rfl, rfl⟩

theorem keptBy_runEmpty (rules : List Rule) (v : Value) :
    ((ofField f).runEmpty v).KeptBy ((ofField (f.withRules rules)).runEmpty v) := by
  rcases runEmpty_withRules f rules v with h | ⟨message, message', h, h'⟩
  · rw [h]
    exact .refl _
  · rw [h, h']
    rintro _ _ ⟨⟩
    exact ⟨message', rfl, fun hne => absurd rfl hne⟩

theorem mem_checks_of_mem_rules {rules : List Rule} (h : ∀ rule, rule ∈ rules ↔ rule ∈ f.rules)
    (c : Check) : c ∈ rules.filterMap (Check.ofRule? f.type) ↔
      c ∈ f.rules.filterMap (Check.ofRule? f.type) := by
  simp only [List.mem_filterMap, h]

/-- A field that compiles with some rules compiles with any others. Rules in another order, and
rules that are repeated, give an answer the same verdict. Rules that are added behind the others keep
every rejection, and its message unless an answer is missing. -/
theorem compile_withRules {val : Validator} (hval : compile false f = .ok val)
    (h : val.run v = .ok outcome) :
    (∀ rules, (∀ rule, rule ∈ rules ↔ rule ∈ f.rules) →
      ∃ val' outcome', compile false (f.withRules rules) = .ok val' ∧ val'.run v = .ok outcome' ∧
        outcome'.isAccepted = outcome.isAccepted ∧ outcome'.value = outcome.value) ∧
    ∀ more, ∃ val' outcome', compile false (f.withRules (f.rules ++ more)) = .ok val' ∧
      val'.run v = .ok outcome' ∧
      ∀ failure message, outcome = .rejected failure message →
        ∃ message', outcome' = .rejected failure message' ∧
          (failure ≠ .missing → message' = message) := by
  obtain rfl := eq_ofField_of_compile hval
  refine ⟨fun rules hrules => ?order, fun more => ?appended⟩
  case order =>
    obtain ⟨outcome', hrun, hsame⟩ := exists_run_withRules Outcome.SameVerdict.refl
      (sameVerdict_runEmpty rules)
      (fun v => sameVerdict_tryChecks v (mem_checks_of_mem_rules hrules)) h
    exact ⟨_, outcome', compile_false _, hrun, hsame⟩
  case appended =>
    have hchecks : ∀ v, (tryChecks v (f.rules.filterMap (Check.ofRule? f.type))).KeptBy
        (tryChecks v ((f.rules ++ more).filterMap (Check.ofRule? f.type))) := by
      intro v failure message hrejected
      rw [List.filterMap_append]
      exact ⟨message, tryChecks_append_of_rejected v hrejected _, fun _ => rfl⟩
    obtain ⟨outcome', hrun, hkept⟩ := exists_run_withRules Outcome.KeptBy.refl
      (keptBy_runEmpty (f.rules ++ more)) hchecks h
    exact ⟨_, outcome', compile_false _, hrun, hkept⟩

/-- A name that is refused is refused with the rules reversed and repeated too, and for the same rule
if an address is asked for behind the others. -/
theorem compile_withRules_nameField :
    (ofField nameField).run (.text "Ann") =
        .ok (.rejected (.rule .maxLength) "Must contain at most 2 character(s)") ∧
      (∃ val' outcome', compile false
          (nameField.withRules (nameField.rules.reverse ++ nameField.rules)) = .ok val' ∧
        val'.run (.text "Ann") = .ok outcome' ∧ outcome'.isAccepted = false) ∧
      ∃ val', compile false
          (nameField.withRules (nameField.rules ++ [⟨.email, none, none⟩])) = .ok val' ∧
        val'.run (.text "Ann") =
          .ok (.rejected (.rule .maxLength) "Must contain at most 2 character(s)") := by
  have hchecks : (ofField nameField).checks =
      [⟨.maxLength (.ofInt 2), "Must contain at most 2 character(s)"⟩,
        ⟨.maxLength (.ofInt 1), "Too long"⟩] := by decide +kernel
  have hlong : ¬(Test.maxLength (.ofInt 2)).holds (.text "Ann") = true := by decide +kernel
  have hrun : (ofField nameField).run (.text "Ann") =
      .ok (.rejected (.rule .maxLength) "Must contain at most 2 character(s)") := by
    rw [run_of_clean?_eq_some rfl rfl, hchecks, tryChecks, if_neg hlong]
    rfl
  obtain ⟨horder, happended⟩ := compile_withRules (compile_false nameField) hrun
  obtain ⟨val, outcome, hval, hreordered, haccepted, -⟩ :=
    horder (nameField.rules.reverse ++ nameField.rules) (by simp)
  obtain ⟨val', outcome', hval', hextended, hkept⟩ := happended [⟨.email, none, none⟩]
  obtain ⟨message, rfl, hmessage⟩ := hkept _ _ rfl
  rw [hmessage (by decide)] at hextended
  exact ⟨hrun, ⟨val, outcome, hval, hreordered, haccepted⟩, val', hval', hextended⟩

end Validator
end FormLogic
