import Karajan.Compiler.Content

/-!
# Content that is ignored

Two accepted documents of one compiled workflow are the same after their defaults
are filled in and their sets ordered, exactly when what the compiler does not read
of them is the same.
-/

namespace Karajan.Compiler

open Yaml List Dict Check
open Scheduling (sorted sortedSet notIn)

variable {f : Dict String String → Key × Yaml → Chk (Dict String String)}

-- Roles and bindings

/-- A mapping of names to names is read from the value, or from nothing there. -/
def Names (value : Yaml) (d : Dict String String) : Prop :=
  (if value.isNull then .map [] else value) = ofMap (d.entries.map fun (a, r) => (a, .text r))

section
variable (round : ∀ {d e d'}, f d e = .ok d' → ∃ a r, e = (.text a, .text r) ∧ d' = d.put a r)
  {entries : Mapping}
include round

theorem entries_of_puts (hentries : (entries.map Prod.fst).Nodup)
    (hnew : ∀ a ∈ d.keys, Key.text a ∉ entries.map Prod.fst)
    (h : entries.foldlM f d = .ok d') : ∃ items : List (String × String),
      entries = items.map (fun (a, r) => (.text a, .text r)) ∧ d'.entries = d.entries ++ items := by
  induction entries generalizing d with
  | nil =>
    cases h
    exact ⟨[], rfl, (append_nil _).symm⟩
  | cons e entries ih =>
    simp only [foldlM_cons, bind_ok] at h
    obtain ⟨next, hnext, h⟩ := h
    obtain ⟨a, r, rfl, rfl⟩ := round hnext
    rw [map_cons, nodup_cons] at hentries
    have hfresh : d.get? a = none := get?_eq_none.mpr fun hm => hnew a hm (by simp)
    have hlater : ∀ b ∈ (d.put a r).keys, Key.text b ∉ entries.map Prod.fst := by
      intro b hb
      rcases Dict.mem_keys_put.mp hb with rfl | hb
      · exact hentries.1
      · exact fun hm => hnew b hb (mem_cons_of_mem _ hm)
    obtain ⟨items, rfl, hitems⟩ := ih hentries.2 hlater h
    refine ⟨(a, r) :: items, rfl, ?_⟩
    rw [hitems, entries_put_new hfresh, append_assoc, singleton_append]

theorem aliases_reads {value : Yaml} (hdistinct : value.distinct = true)
    (hentries : (if value.isNull then .map [] else value) = map entries)
    (h : entries.foldlM f .empty = .ok d) : Names value d := by
  have hkeys : (map entries).distinct = true := by
    rw [← hentries]
    split
    · rfl
    · exact hdistinct
  simp only [distinct, Bool.and_eq_true, decide_eq_true_eq] at hkeys
  obtain ⟨items, rfl, hitems⟩ := entries_of_puts round hkeys.1 (d := .empty) (by simp [Dict.empty, Dict.keys]) h
  rw [Names, hentries, hitems, ofMap, List.map_map]
  rfl

end

theorem key_of_text {name : Key} (h : text L name.value file pointer = .ok a) : name = .text a := by
  have hvalue := text_ok h
  cases name <;> simp_all [Key.value]

theorem roleMap_reads {value : Yaml} (hdistinct : value.distinct = true)
    (h : roleMap L value available = .ok chosen) : Names value chosen := by
  simp only [roleMap, bind_ok, need_ok, map?_eq_some] at h
  obtain ⟨entries, hentries, h⟩ := h
  refine aliases_reads ?_ hdistinct hentries h
  intro d e d' hround
  simp only [bind_ok, pure_ok] at hround
  obtain ⟨a, ha, r, hr, _, -, rfl⟩ := hround
  exact ⟨a, r, Prod.ext (key_of_text ha) (reference_ok hr), rfl⟩

theorem roleBindings_reads {value : Yaml} (hdistinct : value.distinct = true)
    (h : roleBindings L value roles = .ok bindings) : Names value bindings := by
  simp only [roleBindings, bind_ok, need_ok, map?_eq_some] at h
  obtain ⟨entries, hentries, h⟩ := h
  refine aliases_reads ?_ hdistinct hentries h
  intro d e d' hround
  simp only [bind_ok, pure_ok] at hround
  obtain ⟨a, ha, _, -, r, hr, rfl⟩ := hround
  exact ⟨a, r, Prod.ext (key_of_text ha) (reference_ok hr), rfl⟩

variable {m m' : Mapping}

theorem aliases_agree (h : Names (m.get name) d) (h' : Names (m'.get name) d')
    (heq : ofTextMap d.entries = ofTextMap d'.entries) :
    (Field.read name (.map []) true).Agrees ((Field.read name (.map []) true).value m)
      ((Field.read name (.map []) true).value m') := by
  rw [Field.value_nullable rfl, Field.value_nullable rfl]
  refine Field.read_agrees ?_
  change Same (if (m.get name).isNull then .map [] else m.get name)
    (if (m'.get name).isNull then .map [] else m'.get name)
  rw [h, h']
  have hsorted : sortedItems d.entries = sortedItems d'.entries :=
    List.map_injective_iff.mpr (fun _ _ h => by simpa [Prod.ext_iff] using h) (ofMap_inj.mp heq)
  refine same_ofMap ?_ ((perm_of_sortedItems hsorted).map _)
  rw [map_map]
  exact d.nodup

-- Steps

theorem textEntries_all (h : ∀ k ∈ m.map Prod.fst, ∃ name, k = .text name) :
    m = (m.filterMap fun (k, v) => k.text?.map (·, v)).map fun (name, v) => (.text name, v) := by
  induction m with
  | nil => rfl
  | cons e m ih =>
    obtain ⟨k, v⟩ := e
    obtain ⟨name, rfl⟩ := h k (by simp)
    have hrest := ih fun k hk => h k (mem_cons_of_mem _ hk)
    simpa [Key.text?] using hrest

theorem resolveInputs_reads (h : resolveInputs L index step declared kind = .ok inputs) :
    ∃ items : List (String × Yaml), declared = items.map (fun (name, v) => (.text name, v)) ∧
      inputs = sortedItems items := by
  unfold resolveInputs at h
  split at h
  · simp only [bind_ok, ensure_ok, pure_ok, List.isEmpty_iff] at h
    obtain ⟨_, rfl, rfl⟩ := h
    exact ⟨[], rfl, rfl⟩
  · simp only [validateBindings, bind_ok, pure_ok] at h
    obtain ⟨bound, hbound, _, ⟨_, hunknown, -⟩, rfl⟩ := h
    have hkeys : ∀ k ∈ declared.map Prod.fst, ∃ name ∈ kind.inputs.map InputContract.name, k = .text name := by
      intro k hk
      rw [← normalizedInputs_keys hbound] at hk
      obtain ⟨contract, hc, hkey⟩ := List.mem_map.mp (checkUnknownInputs_ok.mp hunknown k hk)
      exact ⟨_, mem_map_of_mem hc, hkey.symm⟩
    refine ⟨_, textEntries_all fun k hk => (hkeys k hk).imp fun _ h => h.2, ?_⟩
    apply List.filter_eq_self.mpr
    rintro ⟨name, v⟩ hm
    obtain ⟨name', hname', heq⟩ := hkeys (.text name)
      (List.mem_map.mpr ⟨_, mem_textEntries.mp (mem_sortedItems.mp hm), rfl⟩)
    cases heq
    exact List.contains_iff_mem.mpr hname'

theorem isText_eq (h : isText value = true) : ∃ s, value = .text s := by
  cases value with
  | text s => exact ⟨s, rfl⟩
  | null | bool | int | other | list | map => cases h

theorem required_reads : isBool value = true → value = .bool (match value with
    | .bool false => false
    | _ => true) := by
  intro h
  cases value with
  | bool b => cases b <;> rfl
  | null | int | text | other | list | map => cases h

theorem StepOf.agrees (h : StepOf L ctx p m s)
    (h' : StepOf L ctx' p' m' s') (hdistinct : (map m).distinct = true)
    (heq : s.asDocument = s'.asDocument) : ∀ f ∈ stepSection, f.Agrees (f.value m) (f.value m') := by
  obtain ⟨d, -, hreads, hresolves⟩ := h
  obtain ⟨d', -, hreads', hresolves'⟩ := h'
  obtain ⟨_, -, hinputs⟩ := hresolves.inputs
  obtain ⟨_, -, hinputs'⟩ := hresolves'.inputs
  rw [hresolves.rest, hresolves'.rest] at heq
  simp only [CompiledStep.asDocument, ofMap_inj, ofTexts_inj, ofText?_inj, List.cons.injEq,
    Prod.mk.injEq, text.injEq, bool.injEq, true_and, and_true] at heq
  obtain ⟨hid, hkind, -, hrole, -, -, -, hdepends, hin, hcontract, -, hrequired, hcondition, hjoin⟩ := heq
  simp only [stepSection, forall_mem_cons, not_mem_nil, false_imp_iff, implies_true, and_true]
  refine ⟨plain_agrees ?_, plain_agrees ?_, plain_agrees ?_, read_agrees (Same.of_eq ?_),
    plain_agrees ?_, plain_agrees ?_, read_agrees (Same.of_eq ?_), read_agrees ?_, ?_⟩
  · rw [hreads.step_id, hreads'.step_id, hid]
  · rw [hreads.kind, hreads'.kind, hkind]
  · rw [hreads.role, hreads'.role, hrole]
  · rw [hreads.depends_on, hreads'.depends_on, hdepends]
  · rw [hreads.contract, hreads'.contract, hcontract]
  · rw [hreads.condition, hreads'.condition]
    refine Eq.trans ?_ (hcondition.trans ?_)
    · cases d.step.condition <;> rfl
    · cases d'.step.condition <;> rfl
  · rw [hreads.join, hreads'.join, hjoin]
  · obtain ⟨items, hitems, hsorted⟩ := resolveInputs_reads hinputs
    obtain ⟨items', hitems', hsorted'⟩ := resolveInputs_reads hinputs'
    have hraw : (map d.raw_inputs).distinct = true := hreads.inputs ▸ distinct_getD hdistinct rfl
    rw [hreads.inputs, hreads'.inputs, hitems, hitems']
    refine same_ofMap ?_ (perm_of_sortedItems (hsorted.symm.trans (hin.trans hsorted')))
    simp only [distinct, Bool.and_eq_true, decide_eq_true_eq, hitems, map_map] at hraw
    exact List.Nodup.of_map Key.text (by simpa [Function.comp_def] using hraw.1)
  · rw [Field.value_getD rfl, Field.value_getD rfl]
    change Field.Agrees _ (m.getD "required" (.bool true)) (m'.getD "required" (.bool true))
    refine Field.partly_agrees (fun hsame => by cases hsame <;> rfl) fun hread hread' => ?_
    exact Same.of_eq ((required_reads hread).trans ((congrArg bool
      (hreads.required.symm.trans (hrequired.trans hreads'.required))).trans
        (required_reads hread').symm))

-- The whole document

theorem CompiledWorkflow.asDocument_inj {c c' : CompiledWorkflow} (h : c.asDocument = c'.asDocument) :
    c.schema_version = c'.schema_version ∧ c.workflow_id = c'.workflow_id ∧
      c.revision = c'.revision ∧ c.delivery_kind = c'.delivery_kind ∧
      c.input_contract_ref = c'.input_contract_ref ∧
      ofTextMap c.roles.entries = ofTextMap c'.roles.entries ∧
      ofTextMap c.bindings.entries = ofTextMap c'.bindings.entries ∧
      c.declared_inputs = c'.declared_inputs ∧
      c.steps.map CompiledStep.asDocument = c'.steps.map CompiledStep.asDocument ∧
      c.completion = c'.completion ∧
      (c.scheduling.map SchedulingDeclaration.asDocument).getD .null =
        (c'.scheduling.map SchedulingDeclaration.asDocument).getD .null ∧
      c.rework.map ReworkRule.asDocument = c'.rework.map ReworkRule.asDocument ∧
      c.expansions.map Expansion.asDocument = c'.expansions.map Expansion.asDocument := by
  simp only [CompiledWorkflow.asDocument, ofMap_inj, ofTexts_inj, List.cons.injEq, Prod.mk.injEq,
    text.injEq, int.injEq, list.injEq, true_and, and_true] at h
  obtain ⟨hschema, ⟨hid, hrevision, hdelivery, hcontract⟩, hroles, -, hbindings, -, hinputs, hsteps,
    ⟨hrequired, hartifact⟩, hscheduling, hrework, hexpansions, -, -⟩ := h
  refine ⟨hschema, hid, hrevision, hdelivery, hcontract, hroles, hbindings, hinputs, hsteps, ?_, ?_,
    hrework, hexpansions⟩
  · cases hc : c.completion
    simp_all
  · refine Eq.trans ?_ (hscheduling.trans ?_)
    · cases c.scheduling <;> rfl
    · cases c'.scheduling <;> rfl

theorem declaredInputs_reads (h : declaredInputs L value = .ok names) :
    (if value.isNull then .list [] else value) = .ofTexts names := by
  unfold declaredInputs at h
  split at h
  case isTrue hnull =>
    cases h
    exact if_pos hnull
  case isFalse hnull =>
    simp only [bind_ok, need_ok, pure_ok, texts?_eq_some] at h
    obtain ⟨_, hvalue, _, -, rfl⟩ := h
    exact (if_neg hnull).trans hvalue

theorem castRoles_reads {workflow : Mapping} (hdistinct : (map workflow).distinct = true)
    (h : castRoles L ctx workflow = .ok roles) :
    Names (workflow.get "roles") roles.chosen ∧ Names (workflow.get "bindings") roles.bindings := by
  simp only [castRoles, bind_ok, pure_ok] at h
  obtain ⟨_, -, chosen, hchosen, _, -, bindings, hbindings, rfl⟩ := h
  exact ⟨roleMap_reads (distinct_getD hdistinct rfl) hchosen,
    roleBindings_reads (distinct_getD hdistinct rfl) hbindings⟩

theorem steps_agree {p p' : Passed} (h : p.Holds L ctx c) (h' : p'.Holds L ctx' c')
    (hdistinct : (map p.workflow).distinct = true)
    (heq : c.steps.map CompiledStep.asDocument = c'.steps.map CompiledStep.asDocument) :
    (Field.records "steps" .null false stepSection).Agrees (p.workflow.get "steps")
      (p'.workflow.get "steps") := by
  obtain ⟨hraw, -⟩ := rawSteps_ok h.raw_steps
  obtain ⟨hraw', -⟩ := rawSteps_ok h'.raw_steps
  have hitems : (list (p.raw_steps.map .map)).distinct = true := hraw ▸ distinct_getD hdistinct rfl
  have hsteps : List.Forall₂ (fun m s => (map m).distinct = true ∧ StepOf L ctx p m s)
      p.raw_steps c.steps :=
    (forall₂_and_left _ _).mpr
      ⟨fun m hm => distinct_item hitems (mem_map_of_mem hm), h.steps⟩
  rw [hraw, hraw']
  refine Field.records_agrees (by decide) (forall₂_of_shown hsteps h'.steps heq ?_)
  rintro m m' s s' ⟨hm, hs⟩ hs' hshown
  exact hs.agrees hs' hm hshown

theorem scheduling_agree (h : scheduling L (m.get "scheduling") roles names bindings index = .ok (es, s, kinds))
    (h' : scheduling L (m'.get "scheduling") roles' names' bindings' index' = .ok (es', s', kinds'))
    (heq : (s.map SchedulingDeclaration.asDocument).getD .null =
      (s'.map SchedulingDeclaration.asDocument).getD .null)
    (hexpansions : es.map Expansion.asDocument = es'.map Expansion.asDocument) :
    (Field.record "scheduling" .null false schedulingSection).Agrees (m.get "scheduling")
      (m'.get "scheduling") := by
  obtain ⟨hnull, rfl⟩ | ⟨v, declared, hv, rfl, hreads⟩ := scheduling_reads h <;>
    obtain ⟨hnull', rfl⟩ | ⟨v', declared', hv', rfl, hreads'⟩ := scheduling_reads h'
  · rw [hnull, hnull']
    exact Field.inner_agrees (iff_of_true .null .null)
  · cases heq
  · cases heq
  · rw [hv, hv']
    exact Field.record_agrees (by decide) (scheduling_agrees hreads hreads' heq hexpansions)

theorem workflow_agrees {p p' : Passed} (h : p.Holds L ctx c) (h' : p'.Holds L ctx' c')
    (hdistinct : (map p.workflow).distinct = true)
    (hdistinct' : (map p'.workflow).distinct = true) (heq : c.asDocument = c'.asDocument) :
    ∀ f ∈ workflowSection, f.Agrees (f.value p.workflow) (f.value p'.workflow) := by
  obtain ⟨hschema, hid, hrevision, hdelivery, hcontract, hroles, hbindings, hinputs, hsteps,
    hcompletion, hscheduling, hrework, hexpansions⟩ := CompiledWorkflow.asDocument_inj heq
  rw [h.rest, h'.rest] at hschema hroles hbindings hinputs
  obtain ⟨hchosen, hbound⟩ := castRoles_reads hdistinct h.roles
  obtain ⟨hchosen', hbound'⟩ := castRoles_reads hdistinct' h'.roles
  simp only [workflowSection, forall_mem_cons, not_mem_nil, false_imp_iff, implies_true, and_true]
  refine ⟨?_, plain_agrees ?_, plain_agrees ?_, plain_agrees ?_, plain_agrees ?_, ?_,
    aliases_agree hchosen hchosen' hroles, aliases_agree hbound hbound' hbindings, ?_, ?_, ?_,
    rework_agrees h.rework h'.rework hrework⟩
  · rw [Field.value_getD rfl, Field.value_getD rfl]
    refine Field.partly_agrees (fun hsame => by cases hsame <;> rfl) fun hread hread' => ?_
    -- a text is shown as it is
    obtain ⟨v, hv⟩ := isText_eq hread
    obtain ⟨v', hv'⟩ := isText_eq hread'
    rw [hv, hv']
    change L.str (p.workflow.getD "schema_version" (.text schemaVersion)) =
      L.str (p'.workflow.getD "schema_version" (.text schemaVersion)) at hschema
    change p.workflow.getD "schema_version" (.text schemaVersion) = _ at hv
    change p'.workflow.getD "schema_version" (.text schemaVersion) = _ at hv'
    rw [hv, hv', L.str_text, L.str_text] at hschema
    exact Same.of_eq (congrArg Yaml.text hschema)
  · rw [text_ok h.workflow_id, text_ok h'.workflow_id, hid]
  · rw [revision_ok h.revision, revision_ok h'.revision, hrevision]
  · rw [(oneOf_ok.mp h.delivery_kind).1, (oneOf_ok.mp h'.delivery_kind).1, hdelivery]
  · rw [reference_ok h.contract, reference_ok h'.contract, hcontract]
  · rw [Field.value_nullable rfl, Field.value_nullable rfl]
    change Field.Agrees _
      (if (p.workflow.get "inputs").isNull then .list [] else p.workflow.get "inputs")
      (if (p'.workflow.get "inputs").isNull then .list [] else p'.workflow.get "inputs")
    rw [declaredInputs_reads h.names, declaredInputs_reads h'.names]
    exact Field.texts_agrees hinputs
  · rw [Field.value_getD rfl, Field.value_getD rfl]
    exact steps_agree h h' hdistinct hsteps
  · rw [Field.value_getD rfl, Field.value_getD rfl]
    exact completion_agrees h.completion h'.completion hcompletion
  · rw [Field.value_getD rfl, Field.value_getD rfl]
    exact scheduling_agree h.scheduling h'.scheduling hscheduling hexpansions

/-- What two accepted documents of one compiled workflow declare is the same exactly when
what the compiler ignores of them is. -/
theorem declared_content_iff {document document' : Document} (h : compileWorkflow L ctx document.value = .ok c)
    (h' : compileWorkflow L ctx' document'.value = .ok c') (heq : c.asDocument = c'.asDocument) :
    Same (declaredContent document.value) (declaredContent document'.value) ↔
      Same (ignoredContent document.value) (ignoredContent document'.value) := by
  obtain ⟨p, hdocument, hp⟩ := compileWorkflow_ok.mp h
  obtain ⟨p', hdocument', hp'⟩ := compileWorkflow_ok.mp h'
  have hagrees := workflow_agrees hp hp' (hdocument ▸ document.distinct)
    (hdocument' ▸ document'.distinct) heq
  rw [hdocument, hdocument']
  exact Section.agrees (by decide) hagrees

-- A field more

def annotate (entry : Key × Yaml) (m : Mapping) : Mapping := m.map fun (name, value) =>
    (name, if name = .text "completion" then onMap (· ++ [entry]) value else value)

@[simp] theorem keys_annotate : (annotate entry m).map Prod.fst = m.map Prod.fst := by
  simp [annotate, Function.comp_def]

theorem find_annotate : Mapping.find (annotate entry m) name = (m.find name).map fun value =>
      if name = "completion" then onMap (· ++ [entry]) value else value := by
  induction m with
  | nil => rfl
  | cons e m ih =>
    rw [annotate, List.map_cons, Mapping.find, Mapping.find, Dict.lookup, Dict.lookup]
    split
    case isTrue heq => simp [heq]
    · exact ih

theorem get_annotate (h : name ≠ "completion") : Mapping.get (annotate entry m) name = m.get name := by
  simp [Mapping.get, find_annotate, h]

theorem getD_annotate (h : name ≠ "completion") :
    Mapping.getD (annotate entry m) name missing = m.getD name missing := by
  simp [Mapping.getD, find_annotate, h]

theorem get_append (h : k ≠ .text name) : Mapping.get (m ++ [(k, value)]) name = m.get name := by
  simp [Mapping.get, Mapping.find, Dict.lookup_append, Dict.lookup, h]

theorem completion_append (h : k ≠ .text "required_steps") (h' : k ≠ .text "artifact") :
    completion L (.map (m ++ [(k, value)])) steps = completion L (.map m) steps := by
  have hsteps : Mapping.get (m ++ [(k, value)]) "required_steps" = m.get "required_steps" := get_append h
  have hartifact : Mapping.get (m ++ [(k, value)]) "artifact" = m.get "artifact" := get_append h'
  simp only [completion, isNull, map?, need, ok_bind, hsteps, hartifact]

theorem refuseNestedEntries_append (h : refuseNestedEntries refuse file depth m = .ok ()) (hk : refuse k = .ok ())
    (hv : refuseNested refuse file depth value = .ok ()) :
    refuseNestedEntries refuse file depth (m ++ [(k, value)]) = .ok () := by
  induction m with
  | nil => simp [refuseNestedEntries, hk, hv]
  | cons e m ih =>
    simp only [cons_append, refuseNestedEntries, bind_ok] at h ⊢
    obtain ⟨_, he, _, hvalue, hrest⟩ := h
    exact ⟨(), he, (), hvalue, ih hrest⟩

theorem refuseNestedEntries_annotate (h : refuseNestedEntries refuse file 1 m = .ok ()) (hk : refuse k = .ok ()) :
    refuseNestedEntries refuse file 1 (annotate (k, .null) m) = .ok () := by
  induction m with
  | nil => rfl
  | cons e m ih =>
    obtain ⟨name, value⟩ := e
    simp only [annotate, map_cons, refuseNestedEntries, bind_ok] at h ⊢
    obtain ⟨_, he, _, hvalue, hrest⟩ := h
    refine ⟨(), he, (), ?_, ih hrest⟩
    split
    case isFalse => exact hvalue
    case isTrue =>
      cases value with
      | null | bool | int | text | other | list => exact hvalue
      | map completion =>
        simp only [onMap, refuseNested, bind_ok] at hvalue ⊢
        obtain ⟨_, hdepth, hentries⟩ := hvalue
        exact ⟨(), hdepth, refuseNestedEntries_append hentries hk rfl⟩

theorem refuseNested_annotate (h : refuseNested refuse file 0 (.map m) = .ok ()) (hk : refuse k = .ok ()) :
    refuseNested refuse file 0 (.map (annotate (k, .null) m)) = .ok () := by
  simp only [refuseNested, bind_ok] at h ⊢
  obtain ⟨_, hdepth, hentries⟩ := h
  exact ⟨(), hdepth, refuseNestedEntries_annotate hentries hk⟩

theorem refuseUnknownFields_keys (h : m.map Prod.fst = m'.map Prod.fst) :
    refuseUnknownFields L m allowed file = refuseUnknownFields L m' allowed file := by
  rw [refuseUnknownFields, refuseUnknownFields, h]

theorem get_annotate_completion {completion : Mapping} (h : m.get "completion" = .map completion) :
    Mapping.get (annotate entry m) "completion" = .map (completion ++ [entry]) := by
  rw [Mapping.get] at h
  rw [Mapping.get, find_annotate]
  cases hfind : m.find "completion" with
  | none => rw [hfind] at h; cases h
  | some value => rw [hfind] at h; cases h; rfl

theorem Passed.Holds.annotate {p : Passed} (h : p.Holds L ctx c)
    (hcredential : looksLikeCredential L k = false) (hscript : isScript L k = false)
    (hk : k ∉ completionSection.keys) :
    ({ p with workflow := Compiler.annotate (k, .null) p.workflow } : Passed).Holds L ctx c := by
  obtain ⟨m, hm, -⟩ := completion_reads h.completion
  simp only [completionSection, Section.keys, plain, Field.read, map_cons, map_nil,
    mem_cons, not_mem_nil, or_false, not_or] at hk
  exact
    { h with
      fields := (refuseUnknownFields_keys keys_annotate).trans h.fields
      credentials := refuseNested_annotate h.credentials (by rw [hcredential]; rfl)
      scripts := refuseNested_annotate h.scripts (by rw [hscript]; rfl)
      names := (congrArg _ (get_annotate (by decide))).trans h.names
      roles := by
        have hroles := h.roles
        simp only [castRoles] at hroles ⊢
        rw [get_annotate (by decide), get_annotate (by decide)]
        exact hroles
      raw_steps := by
        have hraw := h.raw_steps
        simp only [rawSteps] at hraw ⊢
        rw [get_annotate (by decide)]
        exact hraw
      contract := by rw [get_annotate (by decide)]; exact h.contract
      completion := by
        rw [get_annotate_completion hm, completion_append hk.1 hk.2, ← hm]
        exact h.completion
      delivery_kind := by rw [get_annotate (by decide)]; exact h.delivery_kind
      rework := by rw [get_annotate (by decide)]; exact h.rework
      scheduling := by rw [get_annotate (by decide)]; exact h.scheduling
      workflow_id := by rw [get_annotate (by decide)]; exact h.workflow_id
      revision := by rw [get_annotate (by decide)]; exact h.revision
      rest := by rw [getD_annotate (by decide)]; exact h.rest }

theorem declaredContent_annotate {completion : Mapping} (hget : m.get "completion" = .map completion)
    (hnew : k ∉ completion.map Prod.fst) (hk : k ∉ completionSection.keys) :
    ¬ Same (declaredContent (.map m)) (declaredContent (.map (annotate (k, .null) m))) := by
  intro hsame
  have hfields := ((Section.same_entries (s := workflowSection) (by decide)).mp hsame).1
    (.record "completion" .null false completionSection) (by simp [workflowSection])
  rw [rel_some, Field.value_getD rfl, Field.value_getD rfl] at hfields
  change Same (onMap completionSection.normal (m.get "completion"))
    (onMap completionSection.normal (Mapping.get (annotate (k, .null) m) "completion")) at hfields
  rw [hget, get_annotate_completion hget] at hfields
  have hrest := ((Section.same_entries (s := completionSection) (by decide)).mp hfields).2 k hk
  rw [Dict.lookup_eq_none.mpr hnew, rel_none, Dict.lookup_append, Dict.lookup_eq_none.mpr hnew] at hrest
  simp [Dict.lookup] at hrest

/-- The document that delivers remotely, and the same one with a note in its completion. -/
def publishingDocument : Document := ⟨publishing, by decide +kernel⟩

def notedDocument : Document := ⟨onMap (annotate (.text "note", .null)) publishing, by decide +kernel⟩

theorem noted_compiled : ∃ p : Passed, ∃ c, publishing = .map p.workflow ∧
    p.Holds sampleLibrary sampleContext c ∧
    compileWorkflow sampleLibrary sampleContext publishingDocument.value = .ok c ∧
    compileWorkflow sampleLibrary sampleContext notedDocument.value = .ok c := by
  obtain ⟨c, hc⟩ : ∃ c, compileWorkflow sampleLibrary sampleContext publishing = .ok c :=
    ok_of_isOk (by decide +kernel)
  obtain ⟨p, hdocument, hp⟩ := compileWorkflow_ok.mp hc
  have hnoted : notedDocument.value = .map (annotate (.text "note", .null) p.workflow) := by
    change onMap (annotate (.text "note", .null)) publishing = _
    rw [hdocument]
    rfl
  exact ⟨p, c, hdocument, hp, hc, compileWorkflow_ok.mpr ⟨_, hnoted,
    hp.annotate (by decide +kernel) (by decide +kernel) (by decide)⟩⟩

theorem declared_content_iff_noted : ∃ c,
    compileWorkflow sampleLibrary sampleContext publishingDocument.value = .ok c ∧
    compileWorkflow sampleLibrary sampleContext notedDocument.value = .ok c ∧
    (Same (declaredContent publishingDocument.value) (declaredContent notedDocument.value) ↔
      Same (ignoredContent publishingDocument.value) (ignoredContent notedDocument.value)) := by
  obtain ⟨_, c, -, -, hc, hnoted⟩ := noted_compiled
  exact ⟨c, hc, hnoted, declared_content_iff hc hnoted rfl⟩

/-- The note is accepted and is in no compiled workflow. -/
theorem note_ignored : ∃ c, compileWorkflow sampleLibrary sampleContext publishingDocument.value = .ok c ∧
    compileWorkflow sampleLibrary sampleContext notedDocument.value = .ok c ∧
    ¬ Same (declaredContent publishingDocument.value) (declaredContent notedDocument.value) := by
  obtain ⟨p, c, hdocument, hp, hc, hnoted⟩ := noted_compiled
  refine ⟨c, hc, hnoted, ?_⟩
  have hget : p.workflow.get "completion" = ofMap [("required_steps", .ofTexts ["s"]),
      ("artifact", .text "s.output")] := by
    rw [← map.inj hdocument]
    rfl
  change ¬ Same (declaredContent publishing)
    (declaredContent (onMap (annotate (.text "note", .null)) publishing))
  rw [hdocument]
  exact declaredContent_annotate hget (by decide) (by decide)

end Karajan.Compiler
