import FormLogic.Proofs.Schema.Compile
import FormLogic.Proofs.Schema.Report
import FormLogic.Proofs.Schema.Sync
import Mathlib.Data.List.Perm.Basic

namespace FormLogic

namespace Field

/-- The fields of a list in the order of their places. Fields with one place stay as they come. -/
structure IsSorted (fields sorted : List Field) : Prop where
  perm : sorted.Perm fields
  pairwise : sorted.Pairwise (·.order ≤ ·.order)
  stable : ∀ place, sorted.filter (·.order = place) = fields.filter (·.order = place)

theorem isSorted_sort (fields : List Field) : IsSorted fields (sort fields) := by
  have htrans : ∀ f g h : Field, decide (f.order ≤ g.order) = true →
      decide (g.order ≤ h.order) = true → decide (f.order ≤ h.order) = true := by
    simp only [decide_eq_true_eq]
    exact fun _ _ _ => Int.le_trans
  have htotal : ∀ f g : Field, (decide (f.order ≤ g.order) || decide (g.order ≤ f.order)) = true := by
    simp only [Bool.or_eq_true, decide_eq_true_eq]
    exact fun f g => Int.le_total f.order g.order
  have hperm : (sort fields).Perm fields := List.mergeSort_perm fields _
  refine ⟨hperm, ?_, ?_⟩
  · exact (List.pairwise_mergeSort htrans htotal fields).imp of_decide_eq_true
  · intro place
    -- fields of one place are in order as they come, so sorting keeps them as a sublist
    have hplace : (fields.filter (·.order = place)).Pairwise
        fun f g => decide (f.order ≤ g.order) = true := by
      rw [List.pairwise_filter]
      refine List.pairwise_of_forall ?_
      intro f g hf hg
      simp only [decide_eq_true_eq] at hf hg ⊢
      exact Int.le_of_eq (hf.trans hg.symm)
    have hsublist : (fields.filter (·.order = place)).Sublist (sort fields) :=
      List.sublist_mergeSort htrans htotal hplace List.filter_sublist
    have hfilter := hsublist.filter (·.order = place)
    simp only [List.filter_filter, Bool.and_self] at hfilter
    exact (hfilter.eq_of_length (hperm.filter _).length_eq.symm).symm

end Field

/-- What is read of things in another order is the same in another order. -/
theorem Checked.exists_each_of_perm {α β : Type} {read : α → Checked β} {as as' : List α}
    {bs : List β} (h : as.Perm as') (hread : each read as = .ok bs) :
    ∃ bs', each read as' = .ok bs' ∧ bs.Perm bs' := by
  rw [each_eq_ok_iff] at hread
  obtain ⟨bs', hread', hbs⟩ := List.perm_comp_forall₂ h.symm hread
  exact ⟨bs', each_eq_ok_iff.2 hread', hbs.symm⟩

theorem Consistent.of_perm {fields fields' : List Field} (h : fields.Perm fields')
    (hfields : Consistent fields) : Consistent fields' := by
  refine ⟨(h.map Field.id).nodup_iff.1 hfields.nodup_ids, ?_⟩
  intro f hf d hd
  have hfits := hfields.fits f (h.mem_iff.2 hf) d hd
  refine ⟨hfits.birthDate, ?_⟩
  intro parent hparent
  obtain ⟨p, hp, hentered⟩ := hfits.entered parent hparent
  exact ⟨p, h.mem_iff.1 hp, hentered⟩

namespace Schema

section
variable {strict : Bool}

theorem exists_compile_of_perm {fields fields' : List Field} (h : fields.Perm fields')
    {s : Schema} (hs : compile strict fields = .ok s) :
    ∃ s', compile strict fields' = .ok s' ∧ s.fields.Perm s'.fields := by
  obtain ⟨hconsistent, hrules⟩ := exists_compile_iff.1 ⟨s, hs⟩
  obtain ⟨s', hs'⟩ := exists_compile_iff.2 ⟨hconsistent.of_perm h, fun hstrict f hf =>
    hrules hstrict f (h.mem_iff.2 hf)⟩
  refine ⟨s', hs', ?_⟩
  rw [fields_of_compile hs, fields_of_compile hs']
  exact h

theorem exists_ofSources_of_perm {sources sources' : List Field.Source}
    (h : sources.Perm sources') {s : Schema} (hs : ofSources strict sources = .ok s) :
    ∃ s', ofSources strict sources' = .ok s' ∧ s.fields.Perm s'.fields := by
  obtain ⟨fields, hread, hcompile⟩ := ofSources_eq_ok_iff.1 hs
  obtain ⟨fields', hread', hfields⟩ := Checked.exists_each_of_perm h hread
  obtain ⟨s', hs', hperm⟩ := exists_compile_of_perm hfields hcompile
  exact ⟨s', ofSources_eq_ok_iff.2 ⟨fields', hread', hs'⟩, hperm⟩

theorem ofSources_definitions_eq_ok_iff {fields : List Field} {s : Schema} :
    ofSources strict (fields.map .definition) = .ok s ↔ compile strict fields = .ok s := by
  have hread : Checked.each Field.Source.read (fields.map .definition) = .ok fields := by
    rw [Checked.each_eq_ok_iff, List.forall₂_map_left_iff, List.forall₂_same]
    exact fun _ _ => rfl
  rw [ofSources_eq_ok_iff, hread]
  simp

end

def resultOf? (results : List FieldResult) (id : String) : Option FieldResult :=
  results.find? (·.fieldId == id)

/-- Two schemas say the same of every id. They derive the same value for it and change it alike,
validation comes to an end with both or with neither, and then the id has the same result and there
are reports that agree on whether all is valid and on what they warn of. -/
structure SaysTheSame (s s' : Schema) : Prop where
  derived : ∀ settings today answers id,
    (s.field? id).bind (Derived.ofField? settings today answers) =
      (s'.field? id).bind (Derived.ofField? settings today answers)
  patch : ∀ settings today answers id,
    (s.patch settings today answers).get? id = (s'.patch settings today answers).get? id
  returns : ∀ answers, (∃ results, s.validate answers = .ok results) ↔
    ∃ results, s'.validate answers = .ok results
  results : ∀ answers results results', s.validate answers = .ok results →
    s'.validate answers = .ok results' → ∀ id, resultOf? results id = resultOf? results' id
  reports : ∀ answers results, s.validate answers = .ok results →
    ∃ report report', s.report answers = .ok report ∧ s'.report answers = .ok report' ∧
      report.isValid = report'.isValid ∧ report.warnings = report'.warnings

section
variable {s s' : Schema} (h : s.fields.Perm s'.fields) {answers : Answers}
include h

theorem field?_of_perm (id : String) : s.field? id = s'.field? id :=
  find?_key_congr s.nodup_ids s'.nodup_ids (fun _ => h.mem_iff) id

theorem get?_patch_of_perm (settings : Settings) (today : Date) (id : String) :
    (s.patch settings today answers).get? id = (s'.patch settings today answers).get? id := by
  have hchange : ∀ f e, change? settings today answers f = some e → e.1 = f.id :=
    fun f e he => (change?_eq_some settings today answers he).1
  rw [get?_patch, get?_patch]
  exact lookup?_of_perm (s.nodup_ids.sublist (map_fst_filterMap_sublist hchange s.fields))
    (h.filterMap _) id

theorem validate_returns_of_perm : (∃ results, s.validate answers = .ok results) ↔
    ∃ results, s'.validate answers = .ok results := by
  rw [returns_iff_not_fails, returns_iff_not_fails, validate_fails_iff, validate_fails_iff,
    HasTooLarge, HasTooLarge]
  simp only [h.mem_iff]

variable {results results' : List FieldResult} (hs : s.validate answers = .ok results)
  (hs' : s'.validate answers = .ok results')
include hs hs'

theorem mem_results_of_perm {r : FieldResult} (hr : r ∈ results) : r ∈ results' := by
  rw [validate_eq] at hs hs'
  obtain ⟨f, hf, hvalidate⟩ := exists_of_mem_of_mapM_eq_ok hs hr
  obtain ⟨r', hr', hvalidate'⟩ := exists_of_mapM_eq_ok hs' (h.mem_iff.1 hf)
  rwa [Except.ok.inj (hvalidate.symm.trans hvalidate')]

theorem mem_results_iff_of_perm (r : FieldResult) : r ∈ results ↔ r ∈ results' :=
  ⟨mem_results_of_perm h hs hs', mem_results_of_perm h.symm hs' hs⟩

theorem resultOf?_of_perm (id : String) : resultOf? results id = resultOf? results' id :=
  find?_key_congr (nodup_fieldId_of_validate hs) (nodup_fieldId_of_validate hs')
    (mem_results_iff_of_perm h hs hs') id

theorem isValid_gather_of_perm :
    (s.gather answers results).isValid = (s'.gather answers results').isValid := by
  rw [Bool.eq_iff_iff, isValid_gather_iff, isValid_gather_iff]
  simp only [mem_results_iff_of_perm h hs hs']

end

/-- Schemas of the same fields say the same. -/
theorem saysTheSame_of_perm {s s' : Schema} (h : s.fields.Perm s'.fields) : s.SaysTheSame s' where
  derived settings today answers id := by rw [field?_of_perm h]
  patch settings today answers := get?_patch_of_perm h settings today
  returns answers := validate_returns_of_perm h
  results answers results results' hs hs' := resultOf?_of_perm h hs hs'
  reports answers results hs := by
    obtain ⟨results', hs'⟩ := (validate_returns_of_perm h).1 ⟨results, hs⟩
    have hreport : s.report answers = .ok (s.gather answers results) := congrArg (Except.map _) hs
    have hreport' : s'.report answers = .ok (s'.gather answers results') :=
      congrArg (Except.map _) hs'
    refine ⟨_, _, hreport, hreport', isValid_gather_of_perm h hs hs', ?_⟩
    simp only [gather, unknownAnswers, field?_of_perm h]

/-- The order in which the fields of a form are given does not matter. In another order they make a
schema if they did before, and then both schemas say the same of every id. In particular a document
compiles if its fields do as they are stored, and its schema has them in the order in which they
are shown. -/
theorem ofSources_of_perm (strict : Bool) {sources sources' : List Field.Source}
    (h : sources.Perm sources') :
    ((∃ s, ofSources strict sources = .ok s) ↔ ∃ s, ofSources strict sources' = .ok s) ∧
    (∀ s s', ofSources strict sources = .ok s → ofSources strict sources' = .ok s' →
      s.SaysTheSame s') ∧
    ∀ d : Document,
      ((∃ s, d.compile strict = .ok s) ↔
        ∃ s, ofSources strict (d.fields.map .definition) = .ok s) ∧
      ∀ s, d.compile strict = .ok s → Field.IsSorted d.fields s.fields := by
  refine ⟨⟨?_, ?_⟩, ?_, ?_⟩
  · rintro ⟨s, hs⟩
    obtain ⟨s', hs', -⟩ := exists_ofSources_of_perm h hs
    exact ⟨s', hs'⟩
  · rintro ⟨s', hs'⟩
    obtain ⟨s, hs, -⟩ := exists_ofSources_of_perm h.symm hs'
    exact ⟨s, hs⟩
  · intro s s' hs hs'
    -- the second schema is the one that reordering gives
    obtain ⟨s'', hs'', hfields⟩ := exists_ofSources_of_perm h hs
    obtain rfl := Except.ok.inj (hs''.symm.trans hs')
    exact saysTheSame_of_perm hfields
  · intro d
    have hsorted : Field.IsSorted d.fields d.sortedFields := Field.isSorted_sort d.fields
    simp only [ofSources_definitions_eq_ok_iff, Document.compile]
    refine ⟨⟨?_, ?_⟩, ?_⟩
    · rintro ⟨s, hs⟩
      obtain ⟨s', hs', -⟩ := exists_compile_of_perm hsorted.perm hs
      exact ⟨s', hs'⟩
    · rintro ⟨s, hs⟩
      obtain ⟨s', hs', -⟩ := exists_compile_of_perm hsorted.perm.symm hs
      exact ⟨s', hs'⟩
    · intro s hs
      rw [fields_of_compile hs]
      exact hsorted

def taxFields : List Field :=
  [{ Field.ofNumber "net" (some ⟨["gross"], .sum, ""⟩) rfl with order := 1 },
    .ofNumber "gross" none rfl, { Field.ofNumber "vat" none rfl with order := 1 }]

theorem ofSources_of_perm_taxFields :
    ∃ s s', ofSources true (taxFields.map .definition) = .ok s ∧
      ofSources true (taxFields.reverse.map .definition) = .ok s' ∧
      s.fields.map Field.id ≠ s'.fields.map Field.id ∧ s.SaysTheSame s' ∧
      ∃ s, Document.compile true ⟨"taxes", "Taxes", taxFields, none, none⟩ = .ok s ∧
        Field.IsSorted taxFields s.fields := by
  obtain ⟨-, hsame, hdocument⟩ := ofSources_of_perm true
    ((List.reverse_perm taxFields).symm.map Field.Source.definition)
  have hs : ofSources true (taxFields.map .definition) =
      .ok (ofConsistent taxFields (by decide)) := rfl
  have hs' : ofSources true (taxFields.reverse.map .definition) =
      .ok (ofConsistent taxFields.reverse (by decide)) := rfl
  obtain ⟨hcompiles, hsorted⟩ := hdocument ⟨"taxes", "Taxes", taxFields, none, none⟩
  obtain ⟨s, hcompile⟩ := hcompiles.2 ⟨_, hs⟩
  exact ⟨_, _, hs, hs', by decide, hsame _ _ hs hs', s, hcompile, hsorted s hcompile⟩

end Schema

end FormLogic
