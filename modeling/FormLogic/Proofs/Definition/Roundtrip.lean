import FormLogic.Definition.Document
import FormLogic.Proofs.Definition.Entries
import FormLogic.Proofs.Value.Plain

namespace FormLogic

open Key (written Apart)

theorem FieldType.ofName?_name (type : FieldType) : ofName? type.name = some type := by
  cases type <;> rfl

theorem RuleKind.ofName?_name (kind : RuleKind) : ofName? kind.name = some kind := by
  cases kind <;> rfl

theorem Logic.ofName?_name (logic : Logic) : ofName? logic.name = some logic := by
  cases logic <;> rfl

namespace Rule

def parts (rule : Rule) : List (Key × Option Value) := [
  (kindKey, some (.text rule.kind.name)),
  (valueKey, some ((rule.value.map Value.float).getD .null)),
  (messageKey, some ((rule.message.map Value.text).getD .null))]

theorem write_eq (spelling : Spelling) (rule : Rule) :
    rule.write spelling = .record (written spelling rule.parts) := rfl

theorem apart_keys : Apart [kindKey, valueKey, messageKey] := ⟨by decide, by decide⟩

theorem read_write (spelling : Spelling) (rule : Rule) : read (rule.write spelling) = .ok rule := by
  have happart : Apart (rule.parts.map Prod.fst) := apart_keys
  have hvalue := Read.nullable_written Read.float_float (fun _ => Value.noConfusion) rule.value
  have hmessage := Read.nullable_written Read.text_text (fun _ => Value.noConfusion) rule.message
  rw [write_eq, read, Read.object,
    Read.required_written (i := 0) happart rfl (Read.named_text rule.kind.ofName?_name),
    Read.optional_written (i := 1) happart rfl hvalue,
    Read.optional_written (i := 2) happart rfl hmessage]
  rfl

end Rule

namespace Choice

def parts (choice : Choice) : List (Key × Option Value) :=
  [(labelKey, some (.text choice.label)), (valueKey, some (.text choice.value))]

theorem write_eq (spelling : Spelling) (choice : Choice) :
    choice.write = .record (written spelling choice.parts) := by
  cases spelling <;> rfl

theorem apart_keys : Apart [labelKey, valueKey] := ⟨by decide, by decide⟩

theorem read_write (choice : Choice) : read choice.write = .ok choice := by
  have happart : Apart (choice.parts.map Prod.fst) := apart_keys
  rw [write_eq .byName, read, Read.object,
    Read.required_written (i := 0) happart rfl (Read.text_text choice.label),
    Read.required_written (i := 1) happart rfl (Read.text_text choice.value)]
  rfl

end Choice

namespace Derivation

def parts (d : Derivation) : List (Key × Option Value) := [
  (parentsKey, some (.list (d.parents.map Value.text))),
  (logicKey, some (.text d.logic.name)),
  (formulaKey, some (.text d.formula))]

theorem write_eq (spelling : Spelling) (d : Derivation) :
    d.write spelling = .record (written spelling d.parts) := rfl

theorem apart_keys : Apart [parentsKey, logicKey, formulaKey] := ⟨by decide, by decide⟩

theorem read_write (spelling : Spelling) (d : Derivation) : read (d.write spelling) = .ok d := by
  have happart : Apart (d.parts.map Prod.fst) := apart_keys
  rw [write_eq, read, Read.object,
    Read.optional_written (i := 0) happart rfl (Read.list_written_self Read.text_text d.parents),
    Read.required_written (i := 1) happart rfl (Read.named_text d.logic.ofName?_name),
    Read.optional_written (i := 2) happart rfl (Read.text_text d.formula)]
  rfl

end Derivation

namespace Field

/-- A field as it comes back from its data: with what written data tells of its default value. -/
def stored (f : Field) : Field := { f with defaultValue := f.defaultValue.plain }

def parts (spelling : Spelling) (f : Field) : List (Key × Option Value) := [
  (idKey, some (.text f.id)),
  (typeKey, some (.text f.type.name)),
  (labelKey, some (.text f.label)),
  (requiredKey, some (.bool f.required)),
  (isDerivedKey, some (.bool f.isDerived)),
  (derivationKey, some ((f.derivation.map (Derivation.write spelling)).getD .null)),
  (rulesKey, some (.list (f.rules.map (Rule.write spelling)))),
  (choicesKey, some ((f.choices.map fun cs => Value.list (cs.map Choice.write)).getD .null)),
  (defaultValueKey, some f.defaultValue.plain),
  (orderKey, some (.int f.order))]

theorem write_eq (spelling : Spelling) (f : Field) :
    f.write spelling = .record (written spelling (f.parts spelling)) := rfl

theorem apart_keys : Apart [idKey, typeKey, labelKey, requiredKey, isDerivedKey, derivationKey,
    rulesKey, choicesKey, defaultValueKey, orderKey] := ⟨by decide, by decide⟩

def draft (f : Field) : Draft :=
  ⟨⟨f.id, f.id_ne⟩, f.type, f.label, f.required, f.isDerived, f.derivation, f.rules, f.choices,
    f.defaultValue, f.order⟩

theorem toField_draft (f : Field) : f.draft.toField = .ok f := by
  have hfit : choicesFit f.draft.type f.draft.choices = true := f.choices_fit
  have hmissing : ¬(f.draft.isDerived && f.draft.derivation.isNone) = true := by
    cases hd : f.derivation <;> simp [draft, isDerived, hd]
  have hunwanted : ¬(!f.draft.isDerived && f.draft.derivation.isSome) = true := by
    cases hd : f.derivation <;> simp [draft, isDerived, hd]
  rw [Draft.toField, if_neg hmissing, if_neg hunwanted, dif_pos hfit]
  rfl

theorem read_draft (spelling : Spelling) (f : Field) :
    Draft.read (f.write spelling) = .ok f.stored.draft := by
  have happart : Apart ((f.parts spelling).map Prod.fst) := apart_keys
  have hderivation := Read.nullable_written (Derivation.read_write spelling)
    (fun _ => Value.noConfusion) f.derivation
  have hrules := Read.list_written_self (Rule.read_write spelling) f.rules
  have hchoices : Read.nullable (Read.list Choice.read)
      ((f.choices.map fun cs => Value.list (cs.map Choice.write)).getD .null) = .ok f.choices :=
    Read.nullable_written (Read.list_written_self Choice.read_write)
      (fun _ => Value.noConfusion) f.choices
  rw [write_eq, Draft.read, Read.object,
    Read.required_written (i := 0) happart rfl (Read.nonemptyText_text f.id_ne),
    Read.required_written (i := 1) happart rfl (Read.named_text f.type.ofName?_name),
    Read.optional_written (i := 2) happart rfl (Read.text_text f.label),
    Read.optional_written (i := 3) happart rfl (Read.bool_bool f.required),
    Read.optional_written (i := 4) happart rfl (Read.bool_bool f.isDerived),
    Read.optional_written (i := 5) happart rfl hderivation,
    Read.optional_written (i := 6) happart rfl hrules,
    Read.optional_written (i := 7) happart rfl hchoices,
    Read.optional_written (i := 8) happart rfl (Read.any_eq f.defaultValue.plain),
    Read.optional_written (i := 9) happart rfl (Read.int_int f.order)]
  rfl

theorem read_write (spelling : Spelling) (f : Field) : read (f.write spelling) = .ok f.stored := by
  rw [read, read_draft, Checked.andThen, toField_draft]

end Field

namespace Document

def stored (d : Document) : Document := { d with fields := d.fields.map Field.stored }

def parts (spelling : Spelling) (d : Document) : List (Key × Option Value) := [
  (idKey, some (.text d.id)),
  (nameKey, some (.text d.name)),
  (fieldsKey, some (.list (d.fields.map (Field.write spelling)))),
  (createdAtKey, d.createdAt.map fun t => .text (String.ofList t.text)),
  (updatedAtKey, d.updatedAt.map fun t => .text (String.ofList t.text))]

theorem write_eq (spelling : Spelling) (d : Document) :
    d.write spelling = .record (written spelling (d.parts spelling)) := by
  obtain ⟨id, name, fields, createdAt, updatedAt⟩ := d
  cases createdAt <;> cases updatedAt <;> rfl

theorem apart_keys : Apart [idKey, nameKey, fieldsKey, createdAtKey, updatedAtKey] :=
  ⟨by decide, by decide⟩

theorem optional_time {parts : List (Key × Option Value)} (h : Apart (parts.map Prod.fst))
    {spelling : Spelling} {i : Nat} {k : Key} (time : Option Timestamp)
    (hi : parts[i]? = some (k, time.map fun t => .text (String.ofList t.text))) :
    Read.optional k none (fun v => some <$> Read.timestamp v) (written spelling parts) =
      .ok time := by
  cases time with
  | none => exact Read.optional_written_absent h hi
  | some t =>
    refine Read.optional_written h hi ?_
    rw [Read.timestamp_text]
    rfl

theorem read_write (spelling : Spelling) (d : Document) :
    read (d.write spelling) = .ok d.stored := by
  have happart : Apart ((d.parts spelling).map Prod.fst) := apart_keys
  rw [write_eq, read, Read.object,
    Read.required_written (i := 0) happart rfl (Read.text_text d.id),
    Read.required_written (i := 1) happart rfl (Read.text_text d.name),
    Read.optional_written (i := 2) happart rfl
      (Read.list_written (Field.read_write spelling) d.fields),
    optional_time (i := 3) happart d.createdAt rfl, optional_time (i := 4) happart d.updatedAt rfl]
  rfl

end Document
end FormLogic
