import RiscvDialect.Proofs.Lookup
import RiscvDialect.Proofs.Registry

/-!
# Runs of registrations

A registry is filled by calls in a row, some of which ask for one entry and some for all entries of
the dialect. What it holds afterwards depends on the entries that were asked for and nothing else:
under each name it holds the first of them, in each of the two namespaces. All later ones were
refused and changed nothing.

So a run is described by the list of the entries that it asked for, in their order. Which entries
these are does not depend on the registry either: a call for the entries of the dialect goes on up
to the first whose name was asked for before.

Attributes may be of other kinds than those of the dialect. Nothing here looks at them.

## Main definitions

* `Registry.Call`, `Registry.run`: calls, and many of them in a row
* `Registry.asked`, `Registry.Start.history`: the entries that a call asks for, and a run
* `Registry.Records`: the registry holds the first entry under each name

## Main statements

* `Registry.Records.registerAll`, `Registry.Records.call`, `Registry.Records.run`: entries in a row,
  calls and runs keep the record
* `Registry.run_calls`: what is known, refused and counted after a run
-/

namespace RiscvDialect

/-- The name that an entry takes. -/
def Registration.name {κ : Type} : Registration κ → String
  | .attr name _ => name
  | .op name _ => name

namespace Registry

variable {κ : Type} (kind : ParameterKind → κ)

/-! ### Calls -/

/-- What a registry is asked for in one go. -/
inductive Call (κ : Type) where
  /-- One entry. -/
  | register (e : Registration κ)
  /-- The entries of the dialect. -/
  | registerDialect
  deriving DecidableEq, Repr

/-- The entries that a call is for, where `kind` says which kinds of attributes are those of the
dialect. -/
def Call.entries : Call κ → List (Registration κ)
  | .register e => [e]
  | .registerDialect => dialectAs kind

/-- The registry after a call, with the refusal if there was one. -/
def call (r : Registry κ) (c : Call κ) : Registry κ × Option DialectError :=
  r.registerAll (c.entries kind)

theorem call_register (r : Registry κ) (e : Registration κ) :
    r.call kind (.register e) =
      match r.register e with
      | .ok r' => (r', none)
      | .error refusal => (r, some refusal) := by
  rw [call, Call.entries, registerAll]
  cases r.register e <;> rfl

/-- The registry after some calls, whether they were refused or not. -/
def run (r : Registry κ) (calls : List (Call κ)) : Registry κ :=
  calls.foldl (fun r c => (r.call kind c).1) r

/-! ### What is asked for -/

/-- The first entry under a key. -/
def first? (es : List (Registration κ)) (key : String ⊕ String) :
    Option (Registration κ) :=
  es.find? fun e => e.key = key

/-- Entries that share no key. -/
def Distinct (es : List (Registration κ)) : Prop :=
  (es.map Registration.key).Nodup

/-- The entries that are asked for in a row when those in `taken` were asked for before: the ones
up to the first whose key is taken, and this one. -/
def asked (taken : List (Registration κ)) : List (Registration κ) → List (Registration κ)
  | [] => []
  | e :: later => if (first? taken e.key).isSome then [e] else e :: asked taken later

/-- The refusal of a row of entries when those in `taken` were asked for before: that of the first
whose key is taken. -/
def refusal? (taken es : List (Registration κ)) : Option DialectError :=
  (es.find? fun e => (first? taken e.key).isSome).map fun e => .alreadyRegistered e.name

/-- All entries that were asked for after some calls, if those in `made` were before. -/
def historyFrom (made : List (Registration κ)) (calls : List (Call κ)) : List (Registration κ) :=
  calls.foldl (fun made c => made ++ asked made (c.entries kind)) made

/-- The registries that a run may start from. -/
inductive Start where
  /-- The empty one. -/
  | empty
  /-- That of the dialect. -/
  | riscv
  deriving DecidableEq, Repr

/-- The registry at the start. -/
def Start.registry : Start → Registry κ
  | .empty => ⟨.empty, .empty⟩
  | .riscv => extend ⟨.empty, .empty⟩ (dialectAs kind)

/-- Without further kinds of attributes, a run starts from the two registries for those of the
dialect. -/
theorem Start.registry_id (start : Start) :
    start.registry id = match start with
      | .empty => .empty
      | .riscv => .riscv := by
  cases start with
  | empty => rfl
  | riscv =>
    rw [registry, dialectAs_id]
    rfl

/-- The entries that it was made from. -/
def Start.made : Start → List (Registration κ)
  | .empty => []
  | .riscv => dialectAs kind

/-- The names of the attributes among some entries. -/
def attributeNames (es : List (Registration κ)) : List String :=
  es.filterMap fun
    | .attr name _ => some name
    | .op _ _ => none

/-- The names of the ops among some entries. -/
def opNames (es : List (Registration κ)) : List String :=
  es.filterMap fun
    | .attr _ _ => none
    | .op name _ => some name

/-! ### The first entry under a key -/

section First

variable {es es' : List (Registration κ)} {e : Registration κ} {key : String ⊕ String}

theorem first?_append (es es' : List (Registration κ)) (key : String ⊕ String) :
    first? (es ++ es') key = (first? es key).or (first? es' key) :=
  List.find?_append

theorem first?_singleton : first? [e] key = if e.key = key then some e else none := by
  by_cases h : e.key = key <;> simp [first?, h]

theorem key_of_first? (h : first? es key = some e) : e.key = key := by
  simpa using List.find?_some h

theorem first?_isSome_iff : (first? es key).isSome ↔ ∃ e ∈ es, e.key = key := by
  simp [first?]

/-- Among entries that share no key, each is the first under its key. -/
theorem first?_eq_some_iff_mem (hes : Distinct es) :
    first? es key = some e ↔ e ∈ es ∧ e.key = key := by
  constructor
  · exact fun h => ⟨List.mem_of_find?_eq_some h, key_of_first? h⟩
  · rintro ⟨he, rfl⟩
    obtain ⟨first, hfirst⟩ := Option.isSome_iff_exists.1 (first?_isSome_iff.2 ⟨e, he, rfl⟩)
    have heq : first = e :=
      List.inj_on_of_nodup_map hes (List.mem_of_find?_eq_some hfirst) he (key_of_first? hfirst)
    rw [hfirst, heq]

theorem first?_eq_of_perm (h : es.Perm es') (hes : Distinct es) (key : String ⊕ String) :
    first? es key = first? es' key := by
  have hes' : Distinct es' := (h.map _).nodup_iff.1 hes
  ext e
  rw [first?_eq_some_iff_mem hes, first?_eq_some_iff_mem hes', h.mem_iff]

theorem asked_empty (es : List (Registration κ)) : asked [] es = es := by
  induction es with
  | nil => rfl
  | cons e es ih =>
    rw [asked, ih]
    rfl

theorem asked_singleton (taken : List (Registration κ)) (e : Registration κ) :
    asked taken [e] = [e] := by
  rw [asked]
  split <;> rfl

end First

/-! ### Records of entries -/

/-- The registry holds the first of the entries under each key. -/
def Records (r : Registry κ) (made : List (Registration κ)) : Prop :=
  ∀ e, r.Knows e ↔ first? made e.key = some e

variable {r r' : Registry κ} {made : List (Registration κ)} {e : Registration κ}

theorem records_empty : Records (⟨.empty, .empty⟩ : Registry κ) [] := fun e => by
  simp [not_knows_empty, first?]

/-- An entry whose key is taken is refused. -/
theorem register_eq_error {x : Registration κ} (hx : r.Knows x) (hkey : x.key = e.key) :
    r.register e = .error (.alreadyRegistered e.name) := by
  cases e with
  | attr name kind =>
    cases x with
    | attr n k =>
      obtain rfl : n = name := Sum.inl.inj hkey
      simp only [register]
      split
      · next hfree => exact absurd (hfree.symm.trans hx) (by simp)
      · rfl
    | op n k => exact absurd hkey (by simp [Registration.key])
  | op name kind =>
    cases x with
    | attr n k => exact absurd hkey (by simp [Registration.key])
    | op n k =>
      obtain rfl : n = name := Sum.inr.inj hkey
      simp only [register]
      split
      · next hfree => exact absurd (hfree.symm.trans hx) (by simp)
      · rfl

namespace Records

theorem exists_knows_iff (h : Records r made) {key : String ⊕ String} :
    (∃ x, r.Knows x ∧ x.key = key) ↔ (first? made key).isSome := by
  rw [Option.isSome_iff_exists]
  constructor
  · rintro ⟨x, hx, rfl⟩
    exact ⟨x, (h x).1 hx⟩
  · rintro ⟨x, hx⟩
    have hkey := key_of_first? hx
    exact ⟨x, (h x).2 (hkey ▸ hx), hkey⟩

theorem register_eq_error (h : Records r made) (he : (first? made e.key).isSome) :
    r.register e = .error (.alreadyRegistered e.name) := by
  obtain ⟨x, hx, hkey⟩ := h.exists_knows_iff.2 he
  exact Registry.register_eq_error hx hkey

/-- A first entry is made and recorded. -/
theorem register_eq_ok (h : Records r made) (he : first? made e.key = none) :
    ∃ r', r.register e = .ok r' ∧ Records r' (made ++ [e]) := by
  have hfree (x : Registration κ) (hx : r.Knows x) : x.key ≠ e.key := fun hkey => by
    simpa [he] using h.exists_knows_iff.1 ⟨x, hx, hkey⟩
  obtain ⟨r', hr'⟩ := register_isOk hfree
  refine ⟨r', hr', fun x => ?_⟩
  rw [knows_register hr', h x, first?_append, first?_singleton]
  by_cases hkey : e.key = x.key
  · rw [← hkey, he]
    simp [eq_comm]
  · have hne : x ≠ e := fun heq => hkey (heq ▸ rfl)
    simp [hkey, hne]

/-- A later entry does not matter to the record. -/
theorem append_taken (h : Records r made) (he : (first? made e.key).isSome) :
    Records r (made ++ [e]) := by
  intro x
  rw [h x, first?_append, first?_singleton]
  by_cases hkey : e.key = x.key
  · obtain ⟨y, hy⟩ := Option.isSome_iff_exists.1 (hkey ▸ he)
    simp [hy]
  · simp [hkey]

/-- Entries in a row are asked for until one is refused, and all of them are recorded. -/
theorem registerAll (h : Records r made) {taken es : List (Registration κ)} (hes : Distinct es)
    (htaken : ∀ e ∈ es, (first? taken e.key).isSome = (first? made e.key).isSome) :
    Records (r.registerAll es).1 (made ++ asked taken es) ∧
      (r.registerAll es).2 = refusal? taken es := by
  induction es generalizing r made with
  | nil => simpa [Registry.registerAll, asked, refusal?] using h
  | cons e es ih =>
    rw [List.forall_mem_cons] at htaken
    obtain ⟨htakenFirst, htaken⟩ := htaken
    cases he : first? made e.key with
    | some x =>
      have hmade : (first? made e.key).isSome := by simp [he]
      have hrefused : (first? taken e.key).isSome := by rw [htakenFirst, hmade]
      rw [Registry.registerAll, h.register_eq_error hmade, asked, if_pos hrefused]
      refine ⟨h.append_taken hmade, ?_⟩
      simp [refusal?, hrefused]
    | none =>
      have hfree : ¬ (first? taken e.key).isSome := by simp [htakenFirst, he]
      obtain ⟨r', hr', hrecords⟩ := h.register_eq_ok he
      have hlater := ih hrecords (List.nodup_cons.1 hes).2 fun e' he' => ?_
      · rw [Registry.registerAll, hr', asked, if_neg hfree]
        simpa [refusal?, hfree] using hlater
      · have hkey : e.key ≠ e'.key := fun heq =>
          (List.nodup_cons.1 hes).1 (heq ▸ List.mem_map_of_mem he')
        simp [htaken e' he', first?_append, first?_singleton, hkey]

end Records

theorem distinct_entries (c : Call κ) : Distinct (c.entries kind) := by
  cases c with
  | register e => simp [Distinct, Call.entries]
  | registerDialect => exact nodup_keys_dialectAs kind

namespace Records

theorem call (h : Records r made) (c : Call κ) :
    Records (r.call kind c).1 (made ++ asked made (c.entries kind)) ∧
      (r.call kind c).2 = refusal? made (c.entries kind) :=
  h.registerAll (distinct_entries kind c) fun _ _ => rfl

theorem run (h : Records r made) (calls : List (Call κ)) :
    Records (r.run kind calls) (historyFrom kind made calls) := by
  induction calls generalizing r made with
  | nil => exact h
  | cons c calls ih => exact ih (h.call kind c).1

end Records

theorem records_start (start : Start) : Records (start.registry kind) (start.made kind) := by
  cases start with
  | empty => exact records_empty
  | riscv =>
    have h := (records_empty.call kind .registerDialect).1
    rw [Call.entries, asked_empty, List.nil_append, call, Call.entries] at h
    rw [Start.registry, Start.made, extend]
    exact h

/-! ### What the record says -/

theorem mem_attributeNames_iff {name : String} :
    name ∈ attributeNames made ↔ (first? made (.inl name)).isSome := by
  rw [first?_isSome_iff, attributeNames, List.mem_filterMap]
  refine exists_congr fun e => and_congr_right fun _ => ?_
  cases e <;> simp [Registration.key]

theorem mem_opNames_iff {name : String} :
    name ∈ opNames made ↔ (first? made (.inr name)).isSome := by
  rw [first?_isSome_iff, opNames, List.mem_filterMap]
  refine exists_congr fun e => and_congr_right fun _ => ?_
  cases e <;> simp [Registration.key]

namespace Records

theorem attribute?_eq_some_iff (h : Records r made) (name : String) (kind : κ) :
    r.attribute? name = some kind ↔ first? made (.inl name) = some (.attr name kind) :=
  h (.attr name kind)

theorem op?_eq_some_iff (h : Records r made) (name : String) (kind : OpKind) :
    r.op? name = some kind ↔ first? made (.inr name) = some (.op name kind) :=
  h (.op name kind)

theorem isSome_attribute?_iff (h : Records r made) {name : String} :
    (r.attribute? name).isSome ↔ name ∈ attributeNames made := by
  rw [mem_attributeNames_iff, ← h.exists_knows_iff, Option.isSome_iff_exists]
  constructor
  · rintro ⟨kind, hkind⟩
    exact ⟨.attr name kind, hkind, rfl⟩
  · rintro ⟨x, hx, hkey⟩
    cases x with
    | attr n kind => exact ⟨kind, Sum.inl.inj hkey ▸ hx⟩
    | op n kind => cases hkey

theorem isSome_op?_iff (h : Records r made) {name : String} :
    (r.op? name).isSome ↔ name ∈ opNames made := by
  rw [mem_opNames_iff, ← h.exists_knows_iff, Option.isSome_iff_exists]
  constructor
  · rintro ⟨kind, hkind⟩
    exact ⟨.op name kind, hkind, rfl⟩
  · rintro ⟨x, hx, hkey⟩
    cases x with
    | attr n kind => cases hkey
    | op n kind => exact ⟨kind, Sum.inr.inj hkey ▸ hx⟩

/-- A registry is known by its record. -/
theorem eq_of_first?_eq {made' : List (Registration κ)} (h : Records r made) (h' : Records r' made')
    (hfirst : ∀ key, first? made key = first? made' key) : r = r' := by
  have hattributes : r.attributes = r'.attributes := NameTable.ext_get? fun name => by
    ext kind
    have hkind := h.attribute?_eq_some_iff name kind
    rw [hfirst, ← h'.attribute?_eq_some_iff] at hkind
    exact hkind
  have hops : r.ops = r'.ops := NameTable.ext_get? fun name => by
    ext kind
    have hkind := h.op?_eq_some_iff name kind
    rw [hfirst, ← h'.op?_eq_some_iff] at hkind
    exact hkind
  cases r
  cases r'
  simp_all

end Records

theorem exists_historyFrom_eq_append (made : List (Registration κ)) (calls : List (Call κ)) :
    ∃ later, historyFrom kind made calls = made ++ later := by
  induction calls generalizing made with
  | nil => exact ⟨[], (List.append_nil made).symm⟩
  | cons c calls ih =>
    obtain ⟨later, hlater⟩ := ih (made ++ asked made (c.entries kind))
    exact ⟨asked made (c.entries kind) ++ later, by rw [← List.append_assoc, ← hlater]; rfl⟩

/-- What is known stays known. -/
theorem Records.knows_run (h : Records r made) (he : r.Knows e) (calls : List (Call κ)) :
    (r.run kind calls).Knows e := by
  obtain ⟨later, hlater⟩ := exists_historyFrom_eq_append kind made calls
  rw [h.run kind calls e, hlater, first?_append, (h e).1 he, Option.some_or]

/-- A first entry is made, and known from then on. -/
theorem Records.knows_run_register (h : Records r made) (he : first? made e.key = none)
    (calls : List (Call κ)) :
    (r.call kind (.register e)).2 = none ∧ (r.run kind (.register e :: calls)).Knows e := by
  obtain ⟨r', hr', hrecords⟩ := h.register_eq_ok he
  have hcall : r.call kind (.register e) = (r', none) := by
    rw [call_register, hr']
  have hknows : r'.Knows e := by
    rw [hrecords e, first?_append, he, first?_singleton, if_pos rfl, Option.none_or]
  refine ⟨by rw [hcall], ?_⟩
  rw [Registry.run, List.foldl_cons, hcall]
  exact hrecords.knows_run kind hknows calls

theorem historyFrom_register (made es : List (Registration κ)) :
    historyFrom kind made (es.map .register) = made ++ es := by
  induction es generalizing made with
  | nil => simp [historyFrom]
  | cons e es ih =>
    have hstep : historyFrom kind made ((e :: es).map .register) =
        historyFrom kind (made ++ [e]) (es.map .register) := by
      simp [historyFrom, Call.entries, asked_singleton]
    rw [hstep, ih, List.append_assoc, List.singleton_append]

/-- Entries that share no key may be made in any order. -/
theorem Records.run_register_perm (h : Records r made) {es es' : List (Registration κ)}
    (hperm : es.Perm es') (hes : Distinct es) :
    r.run kind (es.map .register) = r.run kind (es'.map .register) := by
  have hrun := h.run kind (es.map .register)
  have hrun' := h.run kind (es'.map .register)
  rw [historyFrom_register] at hrun hrun'
  refine hrun.eq_of_first?_eq hrun' fun key => ?_
  rw [first?_append, first?_append, first?_eq_of_perm hperm hes]

/-- What a registry is after a run of calls. Under each name it holds the first entry that was asked
for, and it keeps what it holds. A first entry is made, and a later one is refused and changes
nothing; a row of entries is refused at the first that is a later one. There are as many attributes
and ops as names were asked for, and the ops are listed in the order of the bytes of their names.
Entries that share no name within a namespace may be made in any order. -/
theorem run_calls (start : Start) (calls : List (Call κ)) :
    let r := (start.registry kind).run kind calls
    let made := historyFrom kind (start.made kind) calls
    (∀ e, r.Knows e ↔ first? made e.key = some e) ∧
    (∀ e later, r.Knows e → (r.run kind later).Knows e) ∧
    (∀ e later, first? made e.key = none →
      (r.call kind (.register e)).2 = none ∧ (r.run kind (.register e :: later)).Knows e) ∧
    (∀ e, (first? made e.key).isSome →
      r.call kind (.register e) = (r, some (.alreadyRegistered e.name))) ∧
    (∀ c, (r.call kind c).2 = refusal? made (c.entries kind)) ∧
    r.attributes.size = (attributeNames made).toFinset.card ∧
    r.ops.size = (opNames made).toFinset.card ∧
    (r.ops.names.Pairwise fun a b => Text.utf8Bytes a < Text.utf8Bytes b) ∧
    (∀ name, name ∈ r.ops.names ↔ (r.op? name).isSome) ∧
    (∀ es es' : List (Registration κ), es.Perm es' → Distinct es →
      r.run kind (es.map .register) = r.run kind (es'.map .register)) := by
  intro r made
  have h : Records r made := (records_start kind start).run kind calls
  refine ⟨h, fun e later he => h.knows_run kind he later,
    fun e later he => h.knows_run_register kind he later, fun e he => ?_,
    fun c => (h.call kind c).2, NameTable.size_eq_card fun name => h.isSome_attribute?_iff,
    NameTable.size_eq_card fun name => h.isSome_op?_iff, r.ops.pairwise_utf8Bytes_names,
    fun name => NameTable.mem_names_iff, fun es es' => h.run_register_perm kind⟩
  rw [call_register, h.register_eq_error he]

/-- The name of labels is taken among attributes, but not among ops, and the name of an instruction
is taken where the dialect is known. -/
theorem run_calls_label :
    let r := Registry.empty.run id [.register (.attr "riscv.label" .register)]
    (r.call id .registerDialect).2 = some (.alreadyRegistered "riscv.label") ∧
    r.call id (.register (.attr "riscv.label" .label)) =
      (r, some (.alreadyRegistered "riscv.label")) ∧
    (r.run id [.register (.op "riscv.label" .label)]).Knows (.op "riscv.label" .label) ∧
    r.run id [.register (.op "b" .label), .register (.op "a" .directive)] =
      r.run id [.register (.op "a" .directive), .register (.op "b" .label)] ∧
    Registry.riscv.call id (.register (.op "riscv.lw" .label)) =
      (.riscv, some (.alreadyRegistered "riscv.lw")) := by
  obtain ⟨-, -, hfirst, hlater, hcall, -, -, -, -, hperm⟩ :=
    run_calls id .empty [.register (.attr "riscv.label" .register)]
  obtain ⟨-, -, -, htaken, -⟩ := run_calls id .riscv []
  have hstart : (Start.riscv.registry id).run id [] = .riscv := by
    rw [run, List.foldl_nil, Start.registry_id]
  have hlw : .op "riscv.lw" (.instruction .lw) ∈ dialectAs id := by
    rw [dialectAs_id, mem_dialect]
    exact .catalog .lw
  rw [hstart] at htaken
  refine ⟨(hcall .registerDialect).trans (by decide), hlater _ (by decide),
    (hfirst _ [] (by decide)).2, ?_,
    htaken (.op "riscv.lw" .label) (first?_isSome_iff.2 ⟨_, hlw, rfl⟩)⟩
  exact hperm [.op "b" .label, .op "a" .directive] _ (.swap _ _ _)
    (by simp [Distinct, Registration.key])

end Registry

end RiscvDialect
