import Karajan.Compiler.Wiring
import Karajan.Lib.Sections

/-!
# What a document says and what is read of it

The sections of a workflow document field by field: what an absent field stands
for, which lists are read as sets and what the compiler never looks at. Only the
top level refuses a field it does not know; a nested section has no such list,
and what it carries besides its fields is in no compiled workflow.
-/

namespace Karajan.Compiler

open List Check
open Scheduling (sorted sortedSet notIn)

-- The sections

def isText : Yaml → Bool
  | .text _ => true
  | _ => false

def isBool : Yaml → Bool
  | .bool _ => true
  | _ => false

/-- A field without a default; null is what reading it gives where it is absent. -/
def plain (name : String) : Field := .read name .null false

def set (name : String) : Field := .texts name (.list []) false sorted

def stepSection : Section :=
  [plain "id", plain "execution_kind", plain "role", .read "depends_on" (.list []) false,
    plain "output_contract", plain "condition", .read "join" (.text "all_required") false,
    .read "inputs" (.map []) false, .partly "required" (.bool true) false isBool]

def completionSection : Section := [plain "required_steps", plain "artifact"]

def triggerSection : Section := [plain "step", .read "outcome" (.text "changes_requested") false]

def reworkSection : Section :=
  [.record "trigger" .null false triggerSection, .texts "returns_to" .null false sorted,
    plain "maximum_rounds", set "invalidates"]

def workContractSection : Section := [set "inputs", set "scope"]

def expansionSection : Section := [plain "id", plain "maximum_members", set "roles",
    .texts "execution_kinds" (.list []) false sortedSet,
    .record "work_contract" (.map []) false workContractSection]

/-- The name of a policy is read only where the policy has a count. -/
def agentPolicySection (counted : Bool) : Section := [plain "maximum",
    .partly "policy_ref" .null false fun value => value.isNull || counted && isText value]

def agentPolicyParts (parts : Section → Mapping → Mapping) (m : Mapping) : Mapping :=
  parts (agentPolicySection (!(m.get "maximum").isNull)) m

def schedulingSection : Section :=
  [plain "role", set "actions", .records "expansions" (.list []) false expansionSection,
    .inner "agent_policy" .null false (onMap (agentPolicyParts Section.normal))
      (onMap (agentPolicyParts Section.unread)),
    .read "maximum_delegation_depth" (.int 0) true,
    .partly "allow_delegation" (.bool false) true isBool]

def workflowSection : Section :=
  [.partly "schema_version" (.text schemaVersion) false isText, plain "id", plain "revision",
    plain "delivery_kind", plain "input_contract", .texts "inputs" (.list []) true sorted,
    .read "roles" (.map []) true, .read "bindings" (.map []) true,
    .records "steps" .null false stepSection, .record "completion" .null false completionSection,
    .record "scheduling" .null false schedulingSection,
    .records "rework" (.list []) true reworkSection]

/-- A document with its defaults filled in and its sets in order. -/
def declaredContent (document : Yaml) : Yaml := onMap workflowSection.normal document

/-- What the compiler leaves unread: the entries of nested sections that are no field of
theirs, and what stands in a field for a value of another kind. -/
def ignoredContent (document : Yaml) : Yaml := onMap workflowSection.unread document

-- Values that are shown

open Yaml (ofTexts text ofText? map map?_eq_some list?_eq_some text? texts?_eq_some int?_eq_some isNull_iff bool int)

theorem ofTexts_inj : ofTexts ts = .ofTexts ts' ↔ ts = ts' := by
  simp only [ofTexts, Yaml.list.injEq]
  exact map_inj_right fun _ _ h => text.inj h

theorem ofText?_inj : ofText? t = .ofText? t' ↔ t = t' := by
  cases t <;> cases t' <;> simp [ofText?]

theorem ofInt?_inj : ofInt? n = ofInt? n' ↔ n = n' := by
  cases n <;> cases n' <;> simp [ofInt?]

theorem ofMap_inj : ofMap items = ofMap items' ↔ items = items' := by
  simp only [ofMap, map.injEq]
  exact map_inj_right fun _ _ h => by simpa [Prod.ext_iff] using h

theorem perm_of_sortedItems {items items' : List (String × α)}
    (h : sortedItems items = sortedItems items') : items.Perm items' := by
  have hperm : (sortedItems items).Perm items := perm_insertionSort _ items
  have hperm' : (sortedItems items').Perm items' := perm_insertionSort _ items'
  exact hperm.symm.trans (h ▸ hperm')

theorem same_ofMap (hitems : (items.map Prod.fst).Nodup)
    (h : items.Perm items') : Same (ofMap items) (ofMap items') := by
  refine Same.of_lookup fun k => (Dict.lookup_perm ?_ (h.symm.map _)).symm
  rw [map_map]
  have hkeys := hitems.map (f := Key.text) fun _ _ h => Key.text.inj h
  rwa [map_map] at hkeys

-- Fields

theorem plain_agrees (h : m.get name = m'.get name) :
    (plain name).Agrees ((plain name).value m) ((plain name).value m') := by
  rw [Field.value_getD rfl, Field.value_getD rfl]
  exact Field.read_agrees (Same.of_eq h)

theorem read_agrees (h : Same (m.getD name missing) (m'.getD name missing)) :
    (Field.read name missing false).Agrees ((Field.read name missing false).value m)
      ((Field.read name missing false).value m') := by
  rw [Field.value_getD rfl, Field.value_getD rfl]
  exact Field.read_agrees h

theorem texts_agrees (h : m.getD name missing = .ofTexts ts) (h' : m'.getD name missing = .ofTexts ts')
    (heq : order ts = order ts') :
    (Field.texts name missing false order).Agrees ((Field.texts name missing false order).value m)
      ((Field.texts name missing false order).value m') := by
  rw [Field.value_getD rfl, Field.value_getD rfl]
  change (Field.texts name missing false order).Agrees (m.getD name missing) (m'.getD name missing)
  rw [h, h']
  exact Field.texts_agrees heq

theorem forall₂_of_shown {R R' : α → β → Prop} {S : α → α → Prop} {shown : β → Yaml}
    (h : List.Forall₂ R l k) (h' : List.Forall₂ R' l' k') (heq : k.map shown = k'.map shown)
    (hS : ∀ {a a' b b'}, R a b → R' a' b' → shown b = shown b' → S a a') : List.Forall₂ S l l' := by
  induction h generalizing l' k' with
  | nil =>
    cases h' with
    | nil => exact .nil
    | cons => cases heq
  | cons hr _ ih =>
    cases h' with
    | nil => cases heq
    | cons hr' hrest =>
      simp only [map_cons, List.cons.injEq] at heq
      exact .cons (hS hr hr' heq.1) (ih hrest heq.2)

theorem each_zipIdx_reads {f : Yaml × Nat → Chk β}
    (hf : ∀ {item index b}, f (item, index) = .ok b → ∃ m, item = .map m)
    (h : each f (items.zipIdx i) = .ok bs) : ∃ ms : List Mapping, items = ms.map .map ∧
      List.Forall₂ (fun m b => ∃ index, f (.map m, index) = .ok b) ms bs := by
  induction items generalizing i bs with
  | nil =>
    cases h
    exact ⟨[], rfl, .nil⟩
  | cons item items ih =>
    obtain ⟨b, rest, hb, hrest, rfl⟩ := each_cons_ok.mp (zipIdx_cons ▸ h)
    obtain ⟨m, rfl⟩ := hf hb
    obtain ⟨ms, rfl, hall⟩ := ih hrest
    exact ⟨m :: ms, rfl, .cons ⟨i, hb⟩ hall⟩

-- Completion and rework

theorem completion_reads (h : completion L value steps = .ok k) :
    ∃ m : Mapping, value = .map m ∧ m.get "required_steps" = .ofTexts k.required_steps ∧
      m.get "artifact" = .text k.artifact := by
  simp only [completion, bind_ok, need_ok, ensure_ok, pure_ok, refuseAll_ok, map?_eq_some, list?_eq_some] at h
  obtain ⟨_, -, m, rfl, declared, hdeclared, _, -, _, hall, artifact, hartifact, _, -, _, -, rfl⟩ := h
  refine ⟨m, rfl, hdeclared.trans ?_, text_ok hartifact⟩
  have htexts : declared = (declared.filterMap text?).map .text := by
    clear hdeclared
    induction declared with
    | nil => rfl
    | cons name declared ih =>
      simp only [flatMap_cons, append_eq_nil_iff] at hall
      obtain ⟨s, rfl, -⟩ := completionDiagnostics_nil hall.1
      rw [filterMap_cons_some (f := text?) rfl, map_cons, ← ih hall.2]
  rw [ofTexts, ← htexts]

theorem completion_agrees (h : completion L value steps = .ok k)
    (h' : completion L value' steps' = .ok k') (heq : k = k') :
    (Field.record name missing nullable completionSection).Agrees value value' := by
  subst heq
  obtain ⟨m, rfl, hsteps, hartifact⟩ := completion_reads h
  obtain ⟨m', rfl, hsteps', hartifact'⟩ := completion_reads h'
  refine Field.record_agrees (by decide) ?_
  simp only [completionSection, forall_mem_cons, not_mem_nil, false_imp_iff, implies_true, and_true]
  exact ⟨plain_agrees (hsteps.trans hsteps'.symm), plain_agrees (hartifact.trans hartifact'.symm)⟩

theorem reworkRule_reads (h : reworkRule L known (item, index) = .ok r) :
    ∃ (m trigger : Mapping) (returns invalidates : List String), item = .map m ∧
      m.get "trigger" = .map trigger ∧ trigger.get "step" = .text r.trigger_step ∧
      trigger.getD "outcome" (.text "changes_requested") = .text r.outcome ∧
      m.get "returns_to" = .ofTexts returns ∧ r.returns_to = sorted returns ∧
      m.get "maximum_rounds" = .int r.maximum_rounds ∧
      m.getD "invalidates" (.list []) = .ofTexts invalidates ∧
      r.invalidates = sorted invalidates := by
  simp only [reworkRule, bind_ok, need_ok, ensure_ok, pure_ok, refuseAll_ok, map?_eq_some,
    texts?_eq_some, int?_eq_some, oneOf_ok] at h
  obtain ⟨m, rfl, trigger, htrigger, step, hstep, trigger_step, ⟨rfl, -⟩, outcome, ⟨houtcome, -⟩,
    returns, hreturns, _, -, _, -, rounds, hrounds, _, -, invalidates, hinvalidates, _, -, rfl⟩ := h
  refine ⟨m, trigger, returns, invalidates, rfl, htrigger, ?_, houtcome, hreturns, rfl, hrounds,
    hinvalidates, rfl⟩
  rw [Mapping.get, hstep, Option.getD_some]

theorem reworkRule_map (h : reworkRule L known (item, index) = .ok r) : ∃ m, item = .map m := by
  obtain ⟨m, _, _, _, hm, -⟩ := reworkRule_reads h
  exact ⟨m, hm⟩

theorem ReworkRule.asDocument_inj {r r' : ReworkRule} (h : r.asDocument = r'.asDocument) : r = r' := by
  cases r
  cases r'
  simpa [ReworkRule.asDocument, ofMap_inj, ofTexts_inj, and_assoc] using h

variable {m m' : Mapping}

theorem reworkRule_agrees (h : reworkRule L known (.map m, index) = .ok r)
    (h' : reworkRule L known' (.map m', index') = .ok r) :
    ∀ f ∈ reworkSection, f.Agrees (f.value m) (f.value m') := by
  obtain ⟨_, trigger, returns, invalidates, ⟨⟩, htrigger, hstep, houtcome, hreturns, hr, hrounds,
    hinvalidates, hi⟩ := reworkRule_reads h
  obtain ⟨_, trigger', returns', invalidates', ⟨⟩, htrigger', hstep', houtcome', hreturns', hr',
    hrounds', hinvalidates', hi'⟩ := reworkRule_reads h'
  have htriggers : ∀ f ∈ triggerSection, f.Agrees (f.value trigger) (f.value trigger') := by
    simp only [triggerSection, forall_mem_cons, not_mem_nil, false_imp_iff, implies_true, and_true]
    exact ⟨plain_agrees (hstep.trans hstep'.symm), read_agrees (Same.of_eq (houtcome.trans houtcome'.symm))⟩
  simp only [reworkSection, forall_mem_cons, not_mem_nil, false_imp_iff, implies_true, and_true]
  refine ⟨?_, ?_, plain_agrees (hrounds.trans hrounds'.symm), ?_⟩
  · rw [Field.value_getD rfl, Field.value_getD rfl]
    change Field.Agrees _ (Mapping.get m "trigger") (Mapping.get m' "trigger")
    rw [htrigger, htrigger']
    exact Field.record_agrees (by decide) htriggers
  · exact texts_agrees hreturns hreturns' (hr.symm.trans hr')
  · exact texts_agrees hinvalidates hinvalidates' (hi.symm.trans hi')

theorem rework_reads (h : rework L value steps = .ok rs) :
    ∃ ms : List Mapping, (if value.isNull then .list [] else value) = .list (ms.map .map) ∧
      List.Forall₂ (fun m r => ∃ index, reworkRule L (steps.map CompiledStep.step_id)
        (.map m, index) = .ok r) ms rs := by
  unfold rework at h
  split at h
  case isTrue hnull =>
    cases h
    exact ⟨[], if_pos hnull, .nil⟩
  case isFalse hnull =>
    simp only [bind_ok, need_ok, list?_eq_some] at h
    obtain ⟨rules, rfl, h⟩ := h
    obtain ⟨ms, hms, hall⟩ := each_zipIdx_reads (fun h => reworkRule_map h) h
    exact ⟨ms, by rw [if_neg hnull, hms], hall⟩

theorem rework_agrees (h : rework L (m.get "rework") steps = .ok rs)
    (h' : rework L (m'.get "rework") steps' = .ok rs')
    (heq : rs.map ReworkRule.asDocument = rs'.map ReworkRule.asDocument) :
    (Field.records "rework" (.list []) true reworkSection).Agrees
      ((Field.records "rework" (.list []) true reworkSection).value m)
      ((Field.records "rework" (.list []) true reworkSection).value m') := by
  rw [Field.value_nullable rfl, Field.value_nullable rfl]
  obtain ⟨ms, hms, hall⟩ := rework_reads h
  obtain ⟨ms', hms', hall'⟩ := rework_reads h'
  change Field.Agrees _ (if (m.get "rework").isNull then .list [] else m.get "rework")
    (if (m'.get "rework").isNull then .list [] else m'.get "rework")
  rw [hms, hms']
  refine Field.records_agrees (by decide) (forall₂_of_shown hall hall' heq ?_)
  rintro a a' r r' ⟨index, hr⟩ ⟨index', hr'⟩ hshown
  obtain rfl := ReworkRule.asDocument_inj hshown
  exact reworkRule_agrees hr hr'

-- Scheduling

theorem memberPolicy_reads (h : memberPolicy value location = .ok n) : value = ofInt? n := by
  unfold memberPolicy at h
  split at h
  case isTrue hnull =>
    cases h
    exact isNull_iff.mp hnull
  · simp only [bind_ok, need_ok, pure_ok, int?_eq_some] at h
    obtain ⟨_, hvalue, _, -, rfl⟩ := h
    exact hvalue

theorem workContract_reads (h : workContract value declared_inputs location = .ok w) :
    ∃ (m : Mapping) (inputs scope : List String), value = .map m ∧
      m.getD "inputs" (.list []) = .ofTexts inputs ∧ w.inputs = sorted inputs ∧
      m.getD "scope" (.list []) = .ofTexts scope ∧ w.scope = sorted scope := by
  simp only [workContract, bind_ok, need_ok, pure_ok, map?_eq_some, texts?_eq_some] at h
  obtain ⟨m, rfl, inputs, hinputs, _, -, scope, hscope, _, -, _, -, rfl⟩ := h
  exact ⟨m, inputs, scope, rfl, hinputs, rfl, hscope, rfl⟩

theorem kindRefs_reads (h : each (fun kind_ref => do
      let pinned ← reference L (.text kind_ref) "workflow.yaml" location
      kindFor pinned location') refs = .ok kinds) : kinds.map ExecutionKind.ref = refs := by
  induction refs generalizing kinds with
  | nil =>
    cases h
    rfl
  | cons kind_ref refs ih =>
    obtain ⟨kind, rest, hkind, hrest, rfl⟩ := each_cons_ok.mp h
    simp only [bind_ok] at hkind
    obtain ⟨pinned, hpinned, hkind⟩ := hkind
    have href : kind.ref = pinned := registered?_ref (kindFor_ok.mp hkind)
    rw [map_cons, ih hrest, href, text.inj (reference_ok hpinned)]

theorem expansion_reads (h : expansion L roles declared_inputs (item, index) = .ok (e, kinds)) :
    ∃ (m work : Mapping) (aliases refs inputs scope : List String), item = .map m ∧
      m.get "id" = .text e.expansion_id ∧ m.get "maximum_members" = ofInt? e.declared_member_policy ∧
      m.getD "roles" (.list []) = .ofTexts aliases ∧ e.roles = sorted aliases ∧
      m.getD "execution_kinds" (.list []) = .ofTexts refs ∧ e.execution_kinds = sortedSet refs ∧
      m.getD "work_contract" (.map []) = .map work ∧
      work.getD "inputs" (.list []) = .ofTexts inputs ∧ e.work_contract.inputs = sorted inputs ∧
      work.getD "scope" (.list []) = .ofTexts scope ∧ e.work_contract.scope = sorted scope := by
  simp only [expansion, bind_ok, need_ok, pure_ok, map?_eq_some, texts?_eq_some, Prod.mk.injEq] at h
  obtain ⟨m, rfl, policy, hpolicy, aliases, haliases, _, -, refs, hrefs, kinds, hkinds, w, hw,
    expansion_id, hid, rfl, rfl⟩ := h
  obtain ⟨work, inputs, scope, hwork, hinputs, hwi, hscope, hws⟩ := workContract_reads hw
  refine ⟨m, work, aliases, refs, inputs, scope, rfl, text_ok hid, memberPolicy_reads hpolicy,
    haliases, rfl, hrefs, ?_, hwork, hinputs, hwi, hscope, hws⟩
  exact congrArg sortedSet (kindRefs_reads hkinds)

theorem expansion_map (h : expansion L roles declared_inputs (item, index) = .ok e) : ∃ m, item = .map m := by
  obtain ⟨m, _, _, _, _, _, hm, -⟩ := expansion_reads h
  exact ⟨m, hm⟩

theorem Expansion.asDocument_inj {e e' : Expansion} (h : e.asDocument = e'.asDocument) : e = e' := by
  obtain ⟨_, _, _, _, _, _, _⟩ := e
  obtain ⟨_, _, _, _, _, _, _⟩ := e'
  simpa [Expansion.asDocument, ofMap_inj, ofTexts_inj, ofInt?_inj, and_assoc] using h

theorem expansion_agrees (h : expansion L roles declared_inputs (.map m, index) = .ok (e, kinds))
    (h' : expansion L roles' declared_inputs' (.map m', index') = .ok (e, kinds')) :
    ∀ f ∈ expansionSection, f.Agrees (f.value m) (f.value m') := by
  obtain ⟨_, work, aliases, refs, inputs, scope, ⟨⟩, hid, hpolicy, haliases, hea, hrefs, her, hwork,
    hinputs, hei, hscope, hes⟩ := expansion_reads h
  obtain ⟨_, work', aliases', refs', inputs', scope', ⟨⟩, hid', hpolicy', haliases', hea', hrefs',
    her', hwork', hinputs', hei', hscope', hes'⟩ := expansion_reads h'
  have hworks : ∀ f ∈ workContractSection, f.Agrees (f.value work) (f.value work') := by
    simp only [workContractSection, forall_mem_cons, not_mem_nil, false_imp_iff, implies_true, and_true]
    exact ⟨texts_agrees hinputs hinputs' (hei.symm.trans hei'),
      texts_agrees hscope hscope' (hes.symm.trans hes')⟩
  simp only [expansionSection, forall_mem_cons, not_mem_nil, false_imp_iff, implies_true, and_true]
  refine ⟨plain_agrees (hid.trans hid'.symm), plain_agrees (hpolicy.trans hpolicy'.symm),
    texts_agrees haliases haliases' (hea.symm.trans hea'),
    texts_agrees hrefs hrefs' (her.symm.trans her'), ?_⟩
  rw [Field.value_getD rfl, Field.value_getD rfl]
  change Field.Agrees _ (Mapping.getD m "work_contract" (.map []))
    (Mapping.getD m' "work_contract" (.map []))
  rw [hwork, hwork']
  exact Field.record_agrees (by decide) hworks

theorem agentPolicy_reads (h : agentPolicy value = .ok p) : value = .null ∧ p.declared = false ∨
      ∃ m : Mapping, value = .map m ∧ p.declared = true ∧ m.get "maximum" = ofInt? p.maximum ∧
        (p.maximum.isSome = true → p.policy_ref = (m.get "policy_ref").text?) := by
  unfold agentPolicy at h
  split at h
  case isTrue hnull =>
    cases h
    exact .inl ⟨isNull_iff.mp hnull, rfl⟩
  · simp only [bind_ok, need_ok, map?_eq_some] at h
    obtain ⟨m, rfl, h⟩ := h
    refine .inr ⟨m, rfl, ?_⟩
    split at h
    case isTrue hnull =>
      cases h
      exact ⟨rfl, isNull_iff.mp hnull, by simp⟩
    · simp only [bind_ok, need_ok, pure_ok, int?_eq_some] at h
      obtain ⟨n, hn, _, -, rfl⟩ := h
      exact ⟨rfl, hn, fun _ => rfl⟩

theorem AgentPolicy.asDocument_inj {p p' : AgentPolicy} (h : p.asDocument = p'.asDocument) :
    p.declared = p'.declared ∧ p.maximum = p'.maximum ∧
      (p.maximum.isSome = true → p.policy_ref = p'.policy_ref) := by
  simp only [AgentPolicy.asDocument, ofMap_inj, cons_append, nil_append, List.cons.injEq,
    Prod.mk.injEq, bool.injEq, ofInt?_inj, true_and] at h
  obtain ⟨hdeclared, hmaximum, -, href⟩ := h
  refine ⟨hdeclared, hmaximum, fun hsome => ?_⟩
  rw [if_pos hsome, if_pos (hmaximum ▸ hsome)] at href
  simpa [ofText?_inj] using href

theorem agentPolicySection_nodup (counted : Bool) : (agentPolicySection counted).keys.Nodup := by
  simp [agentPolicySection, Section.keys, plain, Field.read, Field.partly]

theorem policyRef_agrees (h : counted = true → (m.get "policy_ref").text? = (m'.get "policy_ref").text?) :
    ∀ f ∈ (agentPolicySection counted).tail, f.Agrees (f.value m) (f.value m') := by
  simp only [agentPolicySection, tail_cons, forall_mem_cons, not_mem_nil, false_imp_iff, implies_true, and_true]
  rw [Field.value_getD rfl, Field.value_getD rfl]
  change Field.Agrees _ (m.get "policy_ref") (m'.get "policy_ref")
  refine Field.partly_agrees (fun hsame => by cases hsame <;> rfl) fun hread hread' => ?_
  cases hv : m.get "policy_ref" <;> cases hv' : m'.get "policy_ref" <;>
    simp_all [Yaml.isNull, isText, text?] <;> exact Same.refl _

theorem agentPolicy_agrees (h : agentPolicy value = .ok p) (h' : agentPolicy value' = .ok p')
    (heq : p.asDocument = p'.asDocument) :
    (Field.inner "agent_policy" .null false (onMap (agentPolicyParts Section.normal))
      (onMap (agentPolicyParts Section.unread))).Agrees value value' := by
  obtain ⟨hdeclared, hmaximum, href⟩ := AgentPolicy.asDocument_inj heq
  obtain ⟨rfl, hnone⟩ | ⟨m, rfl, hsome, hm, hp⟩ := agentPolicy_reads h <;>
    obtain ⟨rfl, hnone'⟩ | ⟨m', rfl, hsome', hm', hp'⟩ := agentPolicy_reads h'
  · exact Field.inner_agrees (iff_of_true .null .null)
  · cases hnone.symm.trans (hdeclared.trans hsome')
  · cases hsome.symm.trans (hdeclared.trans hnone')
  · have hget : m.get "maximum" = m'.get "maximum" := by rw [hm, hm', hmaximum]
    refine Field.inner_agrees ?_
    simp only [onMap, agentPolicyParts, ← hget]
    refine Section.agrees (agentPolicySection_nodup _) (List.forall_mem_cons.mpr ⟨plain_agrees hget, ?_⟩)
    refine policyRef_agrees fun hcounted => ?_
    have hcount : p.maximum.isSome = true := by
      rw [hm] at hcounted
      revert hcounted
      cases p.maximum with
      | none => exact nofun
      | some n => exact fun _ => rfl
    rw [← hp hcount, ← hp' (hmaximum ▸ hcount), href hcount]

theorem boundedDepth_reads (h : boundedDepth value = .ok n) :
    (if value.isNull then .int 0 else value) = .int n := by
  unfold boundedDepth at h
  split at h
  case isTrue hnull =>
    cases h
    exact if_pos hnull
  case isFalse hnull =>
    simp only [bind_ok, need_ok, pure_ok, int?_eq_some] at h
    obtain ⟨_, rfl, _, -, rfl⟩ := h
    exact if_neg hnull

/-- What a scheduling section says, as far as the compiler reads it. -/
structure SchedulingReads (L : Library) (m : Mapping) (es : List Expansion)
    (s : SchedulingDeclaration) : Prop where
  role : m.get "role" = .text s.role_alias
  actions : ∃ actions, m.getD "actions" (.list []) = .ofTexts actions ∧
    s.declared_actions = sorted actions
  expansions : ∃ ms : List Mapping, m.getD "expansions" (.list []) = .list (ms.map .map) ∧
    List.Forall₂ (fun m e => ∃ roles declared_inputs index kinds,
      expansion L roles declared_inputs (.map m, index) = .ok (e, kinds)) ms es
  agent_policy : agentPolicy (m.get "agent_policy") = .ok s.agent_policy
  depth : boundedDepth (m.get "maximum_delegation_depth") = .ok s.delegation_maximum_depth
  allowed : s.delegation_allowed = match m.get "allow_delegation" with
    | .bool true => true
    | _ => false

theorem scheduling_reads
    (h : scheduling L value roles declared_inputs bindings binding_index = .ok (es, s, kinds)) :
    value = .null ∧ s = none ∨
      ∃ m declared, value = .map m ∧ s = some declared ∧ SchedulingReads L m es declared := by
  unfold scheduling at h
  split at h
  case isTrue hnull =>
    cases h
    exact .inl ⟨isNull_iff.mp hnull, rfl⟩
  · simp only [bind_ok, need_ok, pure_ok, map?_eq_some, Yaml.text?_eq_some,
      texts?_eq_some, list?_eq_some, Prod.mk.injEq] at h
    obtain ⟨m, rfl, role_alias, hrole, role_ref, -, actions, hactions, _, -, items, hitems, es', hes,
      policy, hpolicy, depth, hdepth, rfl, rfl, -⟩ := h
    refine .inr ⟨m, _, rfl, rfl, hrole, ⟨actions, hactions, rfl⟩, ?_, hpolicy, hdepth, rfl⟩
    obtain ⟨ms, rfl, hall⟩ := each_zipIdx_reads (fun h => expansion_map h) hes
    refine ⟨ms, hitems, List.forall₂_map_right_iff.mpr (hall.imp ?_)⟩
    rintro m ⟨e, kinds⟩ ⟨index, he⟩
    exact ⟨roles, declared_inputs, index, kinds, he⟩

theorem SchedulingDeclaration.asDocument_inj {s s' : SchedulingDeclaration}
    (h : s.asDocument = s'.asDocument) : s.role_alias = s'.role_alias ∧
      s.declared_actions = s'.declared_actions ∧
      s.agent_policy.asDocument = s'.agent_policy.asDocument ∧
      s.delegation_allowed = s'.delegation_allowed ∧
      s.delegation_maximum_depth = s'.delegation_maximum_depth := by
  simp only [SchedulingDeclaration.asDocument, ofMap_inj, ofTexts_inj, List.cons.injEq,
    Prod.mk.injEq, text.injEq, bool.injEq, int.injEq, true_and, and_true] at h
  obtain ⟨hrole, -, -, -, -, hactions, hpolicy, hallowed, hdepth⟩ := h
  exact ⟨hrole, hactions, hpolicy, hallowed, hdepth⟩

theorem allowed_reads (h : isBool (if value.isNull then .bool false else value) = true) :
    (if value.isNull then .bool false else value) = .bool (match value with
      | .bool true => true
      | _ => false) := by
  cases value with
  | bool b => cases b <;> rfl
  | null => rfl
  | int | text | other | list | map => cases h

theorem scheduling_agrees (h : SchedulingReads L m es s)
    (h' : SchedulingReads L m' es' s') (heq : s.asDocument = s'.asDocument)
    (hexpansions : es.map Expansion.asDocument = es'.map Expansion.asDocument) :
    ∀ f ∈ schedulingSection, f.Agrees (f.value m) (f.value m') := by
  obtain ⟨hrole, hactions, hpolicy, hallowed, hdepth⟩ := SchedulingDeclaration.asDocument_inj heq
  obtain ⟨actions, ha, has⟩ := h.actions
  obtain ⟨actions', ha', has'⟩ := h'.actions
  obtain ⟨ms, hms, hall⟩ := h.expansions
  obtain ⟨ms', hms', hall'⟩ := h'.expansions
  simp only [schedulingSection, forall_mem_cons, not_mem_nil, false_imp_iff, implies_true, and_true]
  refine ⟨plain_agrees (by rw [h.role, h'.role, hrole]),
    texts_agrees ha ha' (has.symm.trans (hactions.trans has')), ?_, ?_, ?_, ?_⟩
  · rw [Field.value_getD rfl, Field.value_getD rfl]
    change Field.Agrees _ (m.getD "expansions" (.list [])) (m'.getD "expansions" (.list []))
    rw [hms, hms']
    refine Field.records_agrees (by decide) (forall₂_of_shown hall hall' hexpansions ?_)
    rintro a a' e e' ⟨_, _, _, _, he⟩ ⟨_, _, _, _, he'⟩ hshown
    obtain rfl := Expansion.asDocument_inj hshown
    exact expansion_agrees he he'
  · rw [Field.value_getD rfl, Field.value_getD rfl]
    exact agentPolicy_agrees h.agent_policy h'.agent_policy hpolicy
  · rw [Field.value_nullable rfl, Field.value_nullable rfl]
    refine Field.read_agrees (Same.of_eq ?_)
    exact (boundedDepth_reads h.depth).trans (hdepth ▸ (boundedDepth_reads h'.depth).symm)
  · rw [Field.value_nullable rfl, Field.value_nullable rfl]
    refine Field.partly_agrees (fun hsame => by cases hsame <;> rfl) fun hread hread' => ?_
    exact Same.of_eq ((allowed_reads hread).trans
      ((congrArg bool (h.allowed.symm.trans (hallowed.trans h'.allowed))).trans
        (allowed_reads hread').symm))

end Karajan.Compiler
