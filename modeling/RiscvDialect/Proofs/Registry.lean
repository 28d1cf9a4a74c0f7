import Mathlib.Order.Basic
import RiscvDialect.Registry

/-!
# What a registry knows

A registry is looked at through the entries that it holds. Making an entry adds it to them and
changes nothing else, and so does making many entries in a row, as long as none is refused.

## Main definitions

* `Registry.Knows`: an entry that a registry holds, and `≤`, the order of registries by what they
  hold
* `Registration.key`: what two entries must not share
* `OpNamed`: the names of the dialect's ops
* `Registry.dialectAs`: the entries of the dialect in a registry for more kinds of attributes
* `Registration.InDialect`: the entries of the dialect
* `Registry.KnowsDialect`: a registry that has them all

## Main statements

* `Registry.knows_register`, `Registry.knows_extend`: what is known afterwards
* `Registry.le_extend`: nothing that was known is lost
* `Registry.registerAll_refuses_none`: when no entry of a row is refused
* `Registry.knows_riscv`: the registry of the dialect holds the entries of the dialect
-/

namespace RiscvDialect

/-! ### Entries -/

/-- What an entry takes: a name among those of attributes, on the left, or among those of ops, on
the right. -/
def Registration.key {κ : Type} : Registration κ → String ⊕ String
  | .attr name _ => .inl name
  | .op name _ => .inr name

/-- The entry in a registry for other kinds of attributes. -/
def Registration.map {κ τ : Type} (f : κ → τ) : Registration κ → Registration τ
  | .attr name kind => .attr name (f kind)
  | .op name kind => .op name kind

@[simp] theorem Registration.key_map {κ τ : Type} (f : κ → τ) (e : Registration κ) :
    (e.map f).key = e.key := by
  cases e <;> rfl

@[simp] theorem Registration.map_id {κ : Type} : map (id : κ → κ) = id := by
  funext e
  cases e <;> rfl

namespace Registry

variable {κ : Type} {r r' : Registry κ} {e : Registration κ}

/-- The registry holds the entry. -/
def Knows (r : Registry κ) : Registration κ → Prop
  | .attr name kind => r.attribute? name = some kind
  | .op name kind => r.op? name = some kind

/-- The larger registry holds all the entries of the smaller one, as they are there. -/
instance : Preorder (Registry κ) where
  le r r' := ∀ x, r.Knows x → r'.Knows x
  le_refl _ _ hx := hx
  le_trans _ _ _ h h' x hx := h' x (h x hx)

theorem not_knows_empty (x : Registration κ) : ¬ Knows ⟨.empty, .empty⟩ x := by
  cases x <;> simp [Knows, attribute?, op?]

/-! ### One entry -/

/-- An entry that was made is known afterwards, with all that was known before. -/
theorem knows_register (h : r.register e = .ok r') (x : Registration κ) :
    r'.Knows x ↔ r.Knows x ∨ x = e := by
  cases e with
  | attr name kind =>
    simp only [register] at h
    split at h
    · next hfree =>
      cases h
      cases x with
      | attr n k =>
        simp only [Knows, attribute?, NameTable.get?_insert, Registration.attr.injEq]
        split
        · next hn => subst hn; simp [hfree, eq_comm]
        · next hn => simp [hn]
      | op n k => simp [Knows, op?]
    · simp at h
  | op name kind =>
    simp only [register] at h
    split at h
    · next hfree =>
      cases h
      cases x with
      | attr n k => simp [Knows, attribute?]
      | op n k =>
        simp only [Knows, op?, NameTable.get?_insert, Registration.op.injEq]
        split
        · next hn => subst hn; simp [hfree, eq_comm]
        · next hn => simp [hn]
    · simp at h

/-- An entry is made if its name is free. -/
theorem register_isOk (hfree : ∀ x, r.Knows x → x.key ≠ e.key) : ∃ r', r.register e = .ok r' := by
  cases e with
  | attr name kind =>
    simp only [register]
    split
    · exact ⟨_, rfl⟩
    · next k hk => exact absurd rfl (hfree (.attr name k) hk)
  | op name kind =>
    simp only [register]
    split
    · exact ⟨_, rfl⟩
    · next k hk => exact absurd rfl (hfree (.op name k) hk)

/-! ### Many entries -/

/-- If no entry was refused, all of them are known afterwards. -/
theorem knows_extend {es : List (Registration κ)} (h : (r.registerAll es).2 = none)
    (x : Registration κ) : (r.extend es).Knows x ↔ r.Knows x ∨ x ∈ es := by
  induction es generalizing r with
  | nil => simp [extend, registerAll]
  | cons e es ih =>
    cases he : r.register e with
    | error err => simp [registerAll, he] at h
    | ok r' =>
      simp only [registerAll, he] at h
      have hr' : r.extend (e :: es) = r'.extend es := by simp [extend, registerAll, he]
      rw [hr', ih h, knows_register he, List.mem_cons, or_assoc]

/-- Entries are only added, also if one of them is refused. -/
theorem le_extend (r : Registry κ) (es : List (Registration κ)) : r ≤ r.extend es := by
  induction es generalizing r with
  | nil => exact le_refl r
  | cons e es ih =>
    cases he : r.register e with
    | error err => simp [extend, registerAll, he]
    | ok r' =>
      have hr' : r.extend (e :: es) = r'.extend es := by simp [extend, registerAll, he]
      have hle : r ≤ r' := fun x hx => (knows_register he x).2 (.inl hx)
      rw [hr']
      exact hle.trans (ih r')

/-- No entry is refused if all names are free and different. -/
theorem registerAll_refuses_none {es : List (Registration κ)}
    (hes : (es.map Registration.key).Nodup) (hfree : ∀ e ∈ es, ∀ x, r.Knows x → x.key ≠ e.key) :
    (r.registerAll es).2 = none := by
  induction es generalizing r with
  | nil => rfl
  | cons e es ih =>
    rw [List.map_cons, List.nodup_cons] at hes
    obtain ⟨r', hr⟩ := register_isOk (hfree e List.mem_cons_self)
    simp only [registerAll, hr]
    refine ih hes.2 fun e' he' x hx => ?_
    rcases (knows_register hr x).1 hx with hx | rfl
    · exact hfree e' (List.mem_cons_of_mem _ he') x hx
    · exact fun heq => hes.1 (heq ▸ List.mem_map_of_mem he')

/-! ### The dialect -/

/-- The names of the dialect's ops without their stem, in the order of their registration. -/
def opStems : List String :=
  Opcode.all.map Opcode.mnemonic ++ ["sltui", "label", "directive"]

theorem nodup_opStems : opStems.Nodup := by
  decide +kernel

theorem map_key_dialect : dialect.map Registration.key =
    [ParameterKind.register.name, ParameterKind.label.name].map Sum.inl
      ++ opStems.map fun stem => Sum.inr (Opcode.dialectStem ++ stem) := by
  simp [dialect, opStems, Registration.key, Opcode.aliases, Function.comp_def, Opcode.name]
  decide

theorem nodup_keys_dialect : (dialect.map Registration.key).Nodup := by
  have hops : (opStems.map fun stem =>
      (Sum.inr (Opcode.dialectStem ++ stem) : String ⊕ String)).Nodup :=
    List.Pairwise.map _ (fun _ _ hne h => hne ((String.append_right_inj _).1 (Sum.inr.inj h)))
      nodup_opStems
  rw [map_key_dialect, List.nodup_append]
  exact ⟨by decide, hops, by simp⟩

/-- The entries of the dialect, where `kind` says which kinds of attributes are its own. -/
def dialectAs (kind : ParameterKind → κ) : List (Registration κ) :=
  dialect.map (Registration.map kind)

theorem dialectAs_id : dialectAs id = dialect := by
  rw [dialectAs, Registration.map_id, List.map_id]

/-- Names do not depend on the kinds of attributes. -/
theorem map_key_dialectAs (kind : ParameterKind → κ) :
    (dialectAs kind).map Registration.key = dialect.map Registration.key := by
  rw [dialectAs, List.map_map]
  exact List.map_congr_left fun e _ => Registration.key_map kind e

theorem nodup_keys_dialectAs (kind : ParameterKind → κ) :
    ((dialectAs kind).map Registration.key).Nodup := by
  rw [map_key_dialectAs]
  exact nodup_keys_dialect

end Registry

/-- The names of the dialect's ops: those of the catalog, the aliases, labels and directives. -/
inductive OpNamed : String → OpKind → Prop where
  | catalog (opcode : Opcode) : OpNamed opcode.name (.instruction opcode)
  | otherName {name : String} {opcode : Opcode} (h : (name, opcode) ∈ Opcode.aliases) :
    OpNamed name (.instruction opcode)
  | label : OpNamed Label.opName .label
  | directive : OpNamed Directive.opName .directive

/-- The entries of the dialect: every attribute under its name, and every op under its names. -/
def Registration.InDialect : Registration → Prop
  | .attr name kind => name = kind.name
  | .op name kind => OpNamed name kind

namespace Registry

theorem mem_dialect (x : Registration) : x ∈ dialect ↔ x.InDialect := by
  cases x with
  | attr name kind =>
    simp only [dialect, List.mem_append, List.mem_map, List.mem_cons, Registration.attr.injEq,
      List.not_mem_nil, or_false, reduceCtorEq, and_false, exists_false, Registration.InDialect]
    cases kind <;> simp
  | op name kind =>
    simp only [dialect, List.mem_append, List.mem_map, List.mem_cons, Registration.op.injEq,
      List.not_mem_nil, or_false, reduceCtorEq, false_or, Registration.InDialect]
    constructor
    · rintro ((⟨opcode, -, rfl, rfl⟩ | ⟨⟨n, opcode⟩, hmem, rfl, rfl⟩) | ⟨rfl, rfl⟩ | ⟨rfl, rfl⟩)
      · exact .catalog opcode
      · exact .otherName hmem
      · exact .label
      · exact .directive
    · intro h
      cases h with
      | catalog opcode => exact .inl (.inl ⟨opcode, opcode.mem_all, rfl, rfl⟩)
      | otherName hmem => exact .inl (.inr ⟨_, hmem, rfl, rfl⟩)
      | label => exact .inr (.inl ⟨rfl, rfl⟩)
      | directive => exact .inr (.inr ⟨rfl, rfl⟩)

/-- The registry of the dialect holds the entries of the dialect and nothing else. -/
theorem knows_riscv : riscv.Knows = Registration.InDialect := by
  funext x
  have h : (empty.registerAll dialect).2 = none :=
    registerAll_refuses_none nodup_keys_dialect fun _ _ x hx => absurd hx (not_knows_empty x)
  have hempty : ¬ empty.Knows x := not_knows_empty x
  rw [riscv, knows_extend h, or_iff_right hempty, mem_dialect]

/-- The registry knows the dialect, and maybe more. -/
def KnowsDialect (r : Registry) : Prop :=
  ∀ x : Registration, x.InDialect → r.Knows x

theorem knowsDialect_riscv : riscv.KnowsDialect := by
  intro x hx
  rwa [knows_riscv]

theorem KnowsDialect.op?_eq {r : Registry} (hr : r.KnowsDialect) {name : String} {kind : OpKind}
    (h : OpNamed name kind) : r.op? name = some kind :=
  hr (.op name kind) h

end Registry

end RiscvDialect
