import FormLogic.Derived
import FormLogic.Proofs.Field
import FormLogic.Proofs.Formula.Reading

namespace FormLogic.Derived

variable {settings settings' : Settings} {today today' : Date} {answers answers' : Answers}

/-- A derived value depends on the answers to its parents alone, but for the day of an age and the
settings of a formula. -/
theorem value_congr {d : Derivation} (hanswers : ∀ p ∈ d.parents, answers.get p = answers'.get p)
    (htoday : d.logic = .age → today = today')
    (hsettings : d.logic = .custom → settings = settings') :
    value settings today answers d = value settings' today' answers' d := by
  unfold value
  cases hlogic : d.logic with
  | age =>
    obtain rfl := htoday hlogic
    cases hparents : d.parents with
    | nil => rfl
    | cons p parents =>
      have hp : answers.get p = answers'.get p := hanswers p (by simp [hparents])
      simp only [age, hp]
  | sum =>
    have hmap : d.parents.map answers.get = d.parents.map answers'.get :=
      List.map_congr_left hanswers
    simp only [sum, hmap]
  | concat =>
    have hmap : (d.parents.map fun p => (answers.get p).toText) =
        d.parents.map fun p => (answers'.get p).toText :=
      List.map_congr_left fun p hp => congrArg Value.toText (hanswers p hp)
    simp only [concat, hmap]
  | custom =>
    obtain rfl := hsettings hlogic
    have hsubstitute : Formula.substitute d.formula d.parents answers =
        Formula.substitute d.formula d.parents answers' :=
      Formula.substitute_congr_of_reads fun p hp => hanswers p (Formula.mem_of_reads hp)
    simp only [custom, hsubstitute]

theorem ofField?_congr {f : Field} (hanswers : ∀ p ∈ f.parents, answers.get p = answers'.get p)
    (htoday : f.HasLogic .age → today = today')
    (hsettings : f.HasLogic .custom → settings = settings') :
    ofField? settings today answers f = ofField? settings' today' answers' f := by
  unfold ofField?
  cases hd : f.derivation with
  | none => rfl
  | some d =>
    rw [Option.map_some, Option.map_some, Option.some.injEq]
    apply value_congr
    · exact fun p hp => hanswers p (Field.mem_parents_iff.2 ⟨d, hd, hp⟩)
    · exact fun hlogic => htoday ⟨d, hd, hlogic⟩
    · exact fun hlogic => hsettings ⟨d, hd, hlogic⟩

theorem exists_ofField? (settings : Settings) (today : Date) (answers : Answers) {f : Field}
    (h : f.isDerived = true) : ∃ text, ofField? settings today answers f = some text := by
  obtain ⟨d, hd⟩ := Option.isSome_iff_exists.1 h
  exact ⟨_, by rw [ofField?, hd]; rfl⟩

end FormLogic.Derived
