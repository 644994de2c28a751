import Runbook.Agent.Steps
import Runbook.Proofs.Errors
import Runbook.Proofs.Source.Notation

/-!
This module contains steps as the fields they are written with. Reading the fields gives the step
again, whichever of its fields stand in a step header already.
-/

namespace Runbook.Agent

open Source

/-- A step before it is written. -/
structure StepSpec where
  id : String
  kind : String
  provider : Option String := none
  config : Json.Fields := []
  guard : Option String := none
  retries : Option Nat := none
  timeout : Option Nat := none
  save : Option String := none

/-- A step without the number of its line. -/
def Step.unplaced (step : Step) : Step :=
  { step with line := 0 }

def number (n : Nat) : Atom :=
  .plain (String.ofList (Json.intText n))

def present (own : List (String × Option Atom)) : List (Atom × Document) :=
  own.filterMap fun (name, value) => value.map fun atom => (.plain name, .atom atom)

namespace StepSpec

def step (spec : StepSpec) (form : StepForm) : Step where
  id := spec.id
  kind := spec.kind
  provider := spec.provider
  config := spec.config
  guard := spec.guard
  retries := spec.retries.getD 0
  timeout := spec.timeout
  save := spec.save
  form := form

/--
The fields that a step has for itself. The id, the kind and the provider of a flat step stand in its
header; in the list they are written as `word` gives them.
-/
def ownFields (spec : StepSpec) (form : StepForm) (word : String → Atom)
    : List (String × Option Atom) :=
  let named (text : Option String) := match form with
    | .flat => none
    | .list => text.map word
  [("id", named spec.id), ("kind", named spec.kind), ("provider", named spec.provider),
    ("when", spec.guard.map .quoted), ("retries", spec.retries.map number),
    ("timeout_ms", spec.timeout.map number), ("save", spec.save.map .quoted)]

/-- The fields that a step is written with. Those of its config stand among its own. -/
def fields (spec : StepSpec) (form : StepForm) (word : String → Atom) : List (Atom × Document) :=
  present (spec.ownFields form word) ++ layOutFields spec.config

/-- What a step has to be like to be read as it is written. -/
structure Valid (spec : StepSpec) : Prop where
  id : notBlank spec.id
  kind : notBlank spec.kind
  save : ∀ name ∈ spec.save, notBlank name
  retries : ∀ n ∈ spec.retries, n < 2 ^ 32
  timeout : ∀ n ∈ spec.timeout, 0 < n ∧ n < 2 ^ 63
  config : fieldsExpressible spec.config
  keys : ∀ key ∈ spec.config.keys, key ∉ Step.ownFields ∧ key ≠ "config"

def texts (spec : StepSpec) : List String :=
  spec.id :: spec.kind :: spec.provider.toList

/-- Where a step is read, with what its header says. -/
def site (spec : StepSpec) (form : StepForm) (line column : Nat) : StepSite :=
  match form with
  | .flat =>
    { id := spec.id, head := some ⟨spec.kind, spec.provider⟩, line, column, form := .flat }
  | .list => { line, column, form := .list }

end StepSpec

theorem number_toJson {n : Nat} (h : n < 2 ^ 63) : (number n).toJson = .int n :=
  plainValue_intText (by omega) (by omega)

theorem number_asNat? {n : Nat} (h : n < 2 ^ 63)
    : (Node.scalar (.atom (number n))).toJson.asNat? = some n := by
  have hjson : (Node.scalar (.atom (number n))).toJson = .int n := number_toJson h
  have hbound : 0 ≤ (n : Int) ∧ (n : Int) < (UInt64.size : Nat) := by
    simp only [UInt64.size]
    omega
  rw [hjson]
  change (if 0 ≤ (n : Int) ∧ (n : Int) < (UInt64.size : Nat) then some (n : Int).toNat else none) = _
  rw [if_pos hbound, Int.toNat_natCast]

theorem number_isTidy {n : Nat} (h : n < 2 ^ 63) : (number n).isTidy := by
  have hexpressible : isExpressible (.int n) := by
    unfold isExpressible
    simp only [Bool.and_eq_true, decide_eq_true_eq]
    omega
  exact layOut_isTidy (.int n) hexpressible

section Present

variable {own : List (String × Option Atom)}

theorem mem_present {entry : Atom × Document}
    : entry ∈ present own ↔ ∃ name atom, (name, some atom) ∈ own ∧ entry = (.plain name, .atom atom) := by
  unfold present
  rw [List.mem_filterMap]
  constructor
  . rintro ⟨⟨name, value⟩, hmem, hentry⟩
    obtain ⟨atom, rfl, rfl⟩ := Option.map_eq_some_iff.mp hentry
    exact ⟨name, atom, hmem, rfl⟩
  . rintro ⟨name, atom, hmem, rfl⟩
    exact ⟨_, hmem, rfl⟩

theorem names_present_sublist
    : ((present own).map fun entry => entry.1.text).Sublist (own.map Prod.fst) := by
  induction own with
  | nil => exact .slnil
  | cons field rest ih =>
    obtain ⟨name, value⟩ := field
    cases value with
    | none => exact ih.cons name
    | some atom => exact ih.cons_cons name

theorem find?_present (h : (own.map Prod.fst).Nodup) {name : String} {value : Option Atom}
    (hmem : (name, value) ∈ own)
    : (present own).find? (fun entry => entry.1.text = name)
        =
      value.map fun atom => (.plain name, .atom atom) := by
  induction own with
  | nil => cases hmem
  | cons field rest ih =>
    obtain ⟨other, first⟩ := field
    rw [List.map_cons, List.nodup_cons] at h
    rw [List.mem_cons] at hmem
    cases hmem with
    | inl heq =>
      cases heq
      cases value with
      | some atom => exact List.find?_cons_of_pos (by simp [Atom.text])
      | none =>
        change (present rest).find? _ = none
        rw [List.find?_eq_none]
        intro entry hentry
        have hname := names_present_sublist.subset (List.mem_map_of_mem hentry)
        rw [decide_eq_true_eq]
        rintro rfl
        exact h.1 hname
    | inr hrest =>
      have hne : other ≠ name := by
        rintro rfl
        exact h.1 (List.mem_map.mpr ⟨_, hrest, rfl⟩)
      rw [← ih h.2 hrest]
      cases first with
      | none => rfl
      | some atom => exact List.find?_cons_of_neg (by simp [Atom.text, hne])

end Present

theorem keys_layOutFields (config : Json.Fields)
    : (layOutFields config).map (fun entry => entry.1.text) = config.keys := by
  induction config with
  | nil => rfl
  | cons field rest ih =>
    obtain ⟨key, value⟩ := field
    unfold layOutFields
    rw [List.map_cons, ih]
    rfl

theorem find?_layOutFields {config : Json.Fields} {name : String} (h : name ∉ config.keys)
    : (layOutFields config).find? (fun entry => entry.1.text = name) = none := by
  rw [List.find?_eq_none]
  intro entry hentry
  have hkey := List.mem_map_of_mem (f := fun entry => entry.1.text) hentry
  rw [keys_layOutFields] at hkey
  rw [decide_eq_true_eq]
  rintro rfl
  exact h hkey

namespace StepSpec

variable {spec : StepSpec} {word : String → Atom}

theorem names_ownFields (spec : StepSpec) (form : StepForm) (word : String → Atom)
    : (spec.ownFields form word).map Prod.fst
        =
      ["id", "kind", "provider", "when", "retries", "timeout_ms", "save"] := rfl

theorem mem_ownFields_of_mem_names {form : StepForm} {name : String}
    (h : name ∈ (spec.ownFields form word).map Prod.fst)
    : name ∈ Step.ownFields := by
  have hreserved : ∀ name ∈ ["id", "kind", "provider", "when", "retries", "timeout_ms", "save"],
      name ∈ Step.ownFields := by
    decide
  exact hreserved name h

def Writes (word : String → Atom) (spec : StepSpec) : Prop :=
  ∀ text ∈ spec.texts, (word text).isTidy ∧ (word text).text = text

theorem isTidy_ownFields (h : spec.Valid) (hword : spec.Writes word) (form : StepForm)
    : ∀ field ∈ spec.ownFields form word, ∀ atom ∈ field.2, atom.isTidy := by
  have hprovider : ∀ name ∈ spec.provider, (word name).isTidy := by
    intro name hname
    refine (hword name ?_).1
    simp [texts, Option.mem_def.mp hname]
  have hretries : ∀ n ∈ spec.retries, (number n).isTidy := by
    intro n hn
    have := h.retries n hn
    exact number_isTidy (by omega)
  have htimeout : ∀ n ∈ spec.timeout, (number n).isTidy := by
    intro n hn
    exact number_isTidy (h.timeout n hn).2
  have hquoted (text : String) : (Atom.quoted text).isTidy := rfl
  have hid := (hword spec.id (by simp [texts])).1
  have hkind := (hword spec.kind (by simp [texts])).1
  cases form with
  | flat => simpa [ownFields, hquoted] using ⟨hretries, htimeout⟩
  | list => simpa [ownFields, hquoted, hid, hkind] using ⟨hprovider, hretries, htimeout⟩

theorem entriesTidy_fields (h : spec.Valid) (hword : spec.Writes word) (form : StepForm)
    : Document.entriesTidy (spec.fields form word) := by
  have hconfig := Document.entriesTidy_iff.mp (layOutFields_isTidy spec.config h.config)
  have hnames := names_ownFields spec form word
  have hsublist := @names_present_sublist (spec.ownFields form word)
  rw [hnames] at hsublist
  refine Document.entriesTidy_iff.mpr ⟨?_, ?_⟩
  . intro entry hentry
    rw [fields, List.mem_append] at hentry
    cases hentry with
    | inl hown =>
      obtain ⟨name, atom, hmem, rfl⟩ := mem_present.mp hown
      have hname : name ∈ (spec.ownFields form word).map Prod.fst := List.mem_map_of_mem hmem
      have htidy : ∀ name ∈ (spec.ownFields form word).map Prod.fst,
          (Atom.plain name).isTidy ∧ name.toList.isEmpty = false := by
        rw [hnames]
        decide
      obtain ⟨hkey, hne⟩ := htidy name hname
      exact ⟨hkey, hne, isTidy_ownFields h hword form _ hmem atom rfl⟩
    | inr hmem => exact hconfig.1 entry hmem
  . rw [fields, List.map_append, List.nodup_append]
    refine ⟨hsublist.nodup (by decide), hconfig.2, ?_⟩
    -- no field of the config is called like a field of the step's own
    intro name hown key hkey
    rw [keys_layOutFields] at hkey
    rintro rfl
    rw [← hnames] at hsublist
    exact (h.keys name hkey).1 (mem_ownFields_of_mem_names (hsublist.subset hown))

theorem find?_fields (h : spec.Valid) {form : StepForm} {name : String} {value : Option Atom}
    (hmem : (name, value) ∈ spec.ownFields form word)
    : (spec.fields form word).find? (fun entry => entry.1.text = name)
        =
      value.map fun atom => (.plain name, .atom atom) := by
  have hnames := names_ownFields spec form word
  have hnew : name ∉ spec.config.keys := by
    intro hkey
    exact (h.keys name hkey).1 (mem_ownFields_of_mem_names (List.mem_map_of_mem hmem))
  have hnodup : ((spec.ownFields form word).map Prod.fst).Nodup := by
    rw [hnames]
    decide
  rw [fields, List.find?_append, find?_layOutFields hnew, Option.or_none]
  exact find?_present hnodup hmem

variable (indent line : Nat)

theorem field?_fields (h : spec.Valid) {form : StepForm} {name : String} {value : Option Atom}
    (hmem : (name, value) ∈ spec.ownFields form word)
    : ∃ label, field? (Document.entryNodes indent line (spec.fields form word)) name
        =
      value.map fun atom => (label, .scalar (.atom atom)) := by
  obtain ⟨label, place, below, hfind⟩ :=
    Document.find?_entryNodes indent line (spec.fields form word) name
  refine ⟨label, ?_⟩
  unfold field?
  rw [hfind, find?_fields h hmem]
  cases value <;> rfl

theorem fieldText?_fields (h : spec.Valid) {form : StepForm} {name : String} {value : Option Atom}
    (hmem : (name, value) ∈ spec.ownFields form word)
    : fieldText? (Document.entryNodes indent line (spec.fields form word)) name
        =
      value.map Atom.text := by
  obtain ⟨label, hfield⟩ := field?_fields indent line h hmem
  unfold fieldText?
  rw [hfield]
  cases value <;> rfl

theorem readRetries_fields (h : spec.Valid) (form : StepForm) (id : String)
    : readRetries id (Document.entryNodes indent line (spec.fields form word))
        =
      pure (spec.retries.getD 0) := by
  obtain ⟨label, hfield⟩ := field?_fields indent line h
    (by simp [ownFields] : ("retries", spec.retries.map number) ∈ spec.ownFields form word)
  unfold readRetries
  rw [hfield]
  cases hretries : spec.retries with
  | none => rfl
  | some n =>
    have hn := h.retries n hretries
    dsimp only [Option.map_some]
    rw [number_asNat? (by omega), Option.filter_some, if_pos (by simpa [UInt32.size] using hn)]
    rfl

theorem readTimeout_fields (h : spec.Valid) (form : StepForm) (id : String)
    : readTimeout id (Document.entryNodes indent line (spec.fields form word))
        =
      pure spec.timeout := by
  obtain ⟨label, hfield⟩ := field?_fields indent line h
    (by simp [ownFields] : ("timeout_ms", spec.timeout.map number) ∈ spec.ownFields form word)
  unfold readTimeout
  rw [hfield]
  cases htimeout : spec.timeout with
  | none => rfl
  | some n =>
    obtain ⟨hpos, hn⟩ := h.timeout n htimeout
    dsimp only [Option.map_some]
    rw [number_asNat? hn, Option.filter_some, if_pos (by simpa using hpos)]

theorem foldl_addField (config : Json.Fields) {entries : List Entry}
    (h : ∀ entry ∈ entries, entry.1.key ≠ "config")
    : entries.foldl addField config
        =
      Node.entriesToJson config (entries.filter fun entry => !Step.ownFields.contains entry.1.key) := by
  induction entries generalizing config with
  | nil => rfl
  | cons entry rest ih =>
    obtain ⟨label, node⟩ := entry
    obtain ⟨hkey, hrest⟩ := List.forall_mem_cons.mp h
    have hadd : addField config (label, node)
        = if Step.ownFields.contains label.key then config
          else config.insert label.key node.toJson := by
      unfold addField
      dsimp only
      split
      . rfl
      . split
        . next hconfig _ => exact absurd hconfig hkey
        . rfl
    rw [List.foldl_cons, hadd, List.filter_cons]
    dsimp only
    cases Step.ownFields.contains label.key with
    | true => exact ih _ hrest
    | false => exact ih _ hrest

theorem entriesToJson_append (first second : List (Atom × Document))
    : Document.entriesToJson (first ++ second)
        =
      Document.entriesToJson first ++ Document.entriesToJson second := by
  induction first with
  | nil => rfl
  | cons entry rest ih =>
    obtain ⟨key, value⟩ := entry
    rw [List.cons_append, Document.entriesToJson, ih]
    rfl

theorem keys_config_fields (h : spec.Valid) (form : StepForm)
    : ∀ entry ∈ spec.fields form word, entry.1.text ≠ "config" := by
  intro entry hentry
  rw [fields, List.mem_append] at hentry
  cases hentry with
  | inl hown =>
    have hname := names_present_sublist.subset (List.mem_map_of_mem hown)
    rw [names_ownFields] at hname
    intro hconfig
    rw [hconfig] at hname
    revert hname
    decide
  | inr hmem =>
    have hkey := List.mem_map_of_mem (f := fun entry => entry.1.text) hmem
    rw [keys_layOutFields] at hkey
    exact (h.keys _ hkey).2

theorem config_fields (h : spec.Valid) (form : StepForm)
    : (Document.entriesToJson (spec.fields form word)).filter
          (fun field => !Step.ownFields.contains field.1)
        =
      spec.config := by
  rw [fields, entriesToJson_append, List.filter_append, layOutFields_toJson _ h.config]
  have hown : (Document.entriesToJson (present (spec.ownFields form word))).filter
      (fun field => !Step.ownFields.contains field.1) = [] := by
    rw [List.filter_eq_nil_iff]
    intro field hfield
    have hname : field.1 ∈ (Document.entriesToJson (present (spec.ownFields form word))).keys :=
      List.mem_map_of_mem hfield
    rw [Document.keys_entriesToJson] at hname
    simp [mem_ownFields_of_mem_names (names_present_sublist.subset hname)]
  have hconfig : spec.config.filter (fun field => !Step.ownFields.contains field.1)
      = spec.config := by
    rw [List.filter_eq_self]
    intro field hfield
    simp [(h.keys field.1 (List.mem_map_of_mem hfield)).1]
  rw [hown, hconfig]
  rfl

theorem configOf_fields (h : spec.Valid) (hword : spec.Writes word) (form : StepForm)
    : configOf (Document.entryNodes indent line (spec.fields form word)) = spec.config := by
  have htidy := entriesTidy_fields h hword form
  have hkeys := Document.keys_entryNodes indent line (spec.fields form word)
  have hjson := Document.entryNodes_toJson (spec.fields form word) htidy indent line
  have hnodup := (Document.entriesTidy_iff.mp htidy).2
  have hconfig := @keys_config_fields spec word h form
  rw [← hkeys] at hnodup
  generalize Document.entryNodes indent line (spec.fields form word) = nodes at hkeys hjson hnodup
  have hnew : ∀ entry ∈ nodes, entry.1.key ≠ "config" := by
    intro entry hentry
    have hkey := List.mem_map_of_mem (f := fun entry => entry.1.key) hentry
    rw [hkeys, List.mem_map] at hkey
    obtain ⟨other, hmem, hother⟩ := hkey
    rw [← hother]
    exact hconfig other hmem
  have hkept : ((nodes.filter fun entry => !Step.ownFields.contains entry.1.key).map
      fun entry => entry.1.key).Nodup :=
    (List.filter_sublist.map _).nodup hnodup
  -- the keys are all different, so that the fields of the config keep their order
  unfold configOf
  rw [foldl_addField [] hnew, Node.entriesToJson_of_nodup _ [] hkept, List.nil_append]
  rw [← @config_fields spec word h form, ← hjson, List.filter_map]
  rfl

theorem texts_fields (h : spec.Valid) (hword : spec.Writes word) (form : StepForm)
    (first column : Nat)
    : let nodes := Document.entryNodes indent line (spec.fields form word)
      let site := spec.site form first column
      site.id.or (fieldText? nodes "id") = some spec.id ∧
      (site.head.bind (·.kind)).or (fieldText? nodes "kind") = some spec.kind ∧
      (site.head.bind (·.provider)).or (fieldText? nodes "provider") = spec.provider := by
  have hown (name : String) (value : Option Atom)
      (hmem : (name, value) ∈ spec.ownFields form word) := fieldText?_fields indent line h hmem
  intro nodes site
  cases form with
  | flat =>
    have hprovider := hown "provider" none (by simp [ownFields])
    refine ⟨rfl, rfl, ?_⟩
    unfold nodes
    rw [hprovider]
    exact Option.or_none
  | list =>
    have hid := hown "id" (some (word spec.id)) (by simp [ownFields])
    have hkind := hown "kind" (some (word spec.kind)) (by simp [ownFields])
    have hprovider := hown "provider" (spec.provider.map word) (by simp [ownFields])
    unfold nodes
    rw [hid, hkind, hprovider]
    refine ⟨?_, ?_, ?_⟩
    . exact congrArg some (hword spec.id (by simp [texts])).2
    . exact congrArg some (hword spec.kind (by simp [texts])).2
    . cases hname : spec.provider with
      | none => rfl
      | some name => exact congrArg some (hword name (by simp [texts, hname])).2

theorem readStep_fields (h : spec.Valid) (hword : spec.Writes word) (form : StepForm)
    (first column : Nat)
    : readStep (spec.site form first column)
          (Document.entryNodes indent line (spec.fields form word))
        =
      pure (some { spec.step form with line := first }) := by
  obtain ⟨hid, hkind, hprovider⟩ := texts_fields indent line h hword form first column
  have hguard := fieldText?_fields indent line h
    (by simp [ownFields] : ("when", spec.guard.map .quoted) ∈ spec.ownFields form word)
  have hsave := fieldText?_fields indent line h
    (by simp [ownFields] : ("save", spec.save.map .quoted) ∈ spec.ownFields form word)
  have hquoted (text : Option String) : (text.map Atom.quoted).map Atom.text = text := by
    cases text <;> rfl
  have hkept : spec.save.filter notBlank = spec.save := by
    cases hname : spec.save with
    | none => rfl
    | some name => rw [Option.filter_some, if_pos (h.save name hname)]
  have hkindOf : kindOf? (spec.site form first column)
      (Document.entryNodes indent line (spec.fields form word)) = some spec.kind := by
    unfold kindOf?
    rw [← Option.or_assoc, hkind, Option.some_or, Option.filter_some, if_pos h.kind]
  unfold readStep
  rw [hid, Option.filter_some, if_pos h.id]
  dsimp only
  rw [hkindOf]
  dsimp only
  rw [readRetries_fields indent line h, readTimeout_fields indent line h, hprovider,
    configOf_fields indent line h hword, hguard, hsave, hquoted, hquoted, hkept]
  cases form <;> rfl

end StepSpec

end Runbook.Agent
