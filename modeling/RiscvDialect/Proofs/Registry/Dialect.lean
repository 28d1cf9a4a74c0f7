import RiscvDialect.Proofs.Registry.Run

/-!
# Registering the dialect

The entries of the dialect are made in one row, and the row ends at the first name that is taken.
What was made before it stays, so the registry may end up with a part of the dialect. Which part it
is depends on the names that are taken and on nothing else: entries of the row share no name, so no
entry that the row itself has made can get into its way.

The first entry of the row is that of registers. It is there after any attempt, be it made by this
attempt or found there, and since no entry is ever lost, no later attempt gets beyond it.

Attributes may be of other kinds than those of the dialect. Nothing here looks at them.

## Main definitions

* `Registry.taken`: a name that cannot be registered any more
* `Registry.registerDialect`: an attempt to make the entries of the dialect

## Main statements

* `Registry.taken_register`: what is taken after one more entry
* `Registry.registerAll_spec`: a row of entries
* `Registry.registerDialect_exact`: an attempt to register the dialect, and all that follow it
-/

namespace RiscvDialect

namespace Registry

variable {κ : Type} {r r' : Registry κ} {e : Registration κ} {es : List (Registration κ)}
  {key : String ⊕ String}

/-! ### Taken names -/

/-- Whether there is an entry under a key already. -/
def taken (r : Registry κ) : String ⊕ String → Bool
  | .inl name => (r.attribute? name).isSome
  | .inr name => (r.op? name).isSome

/-- The name that is taken under a key. -/
def nameOf : String ⊕ String → String :=
  Sum.elim id id

theorem taken_iff : r.taken key ↔ ∃ x, r.Knows x ∧ x.key = key := by
  cases key with
  | inl name =>
    rw [taken, Option.isSome_iff_exists]
    constructor
    · rintro ⟨kind, hkind⟩
      exact ⟨.attr name kind, hkind, rfl⟩
    · rintro ⟨x, hx, hkey⟩
      cases x with
      | attr n kind => exact ⟨kind, Sum.inl.inj hkey ▸ hx⟩
      | op n kind => cases hkey
  | inr name =>
    rw [taken, Option.isSome_iff_exists]
    constructor
    · rintro ⟨kind, hkind⟩
      exact ⟨.op name kind, hkind, rfl⟩
    · rintro ⟨x, hx, hkey⟩
      cases x with
      | attr n kind => cases hkey
      | op n kind => exact ⟨kind, Sum.inr.inj hkey ▸ hx⟩

theorem taken_of_le (h : r ≤ r') (hkey : r.taken key) : r'.taken key := by
  obtain ⟨x, hx, hxkey⟩ := taken_iff.1 hkey
  exact taken_iff.2 ⟨x, h x hx, hxkey⟩

/-! ### One entry -/

theorem register_of_taken (h : r.taken e.key) :
    r.register e = .error (.alreadyRegistered (nameOf e.key)) := by
  cases e with
  | attr name kind =>
    simp only [register]
    split
    · next hfree =>
      have hnone : r.attribute? name = none := hfree
      simp [Registration.key, taken, hnone] at h
    · rfl
  | op name kind =>
    simp only [register]
    split
    · next hfree =>
      have hnone : r.op? name = none := hfree
      simp [Registration.key, taken, hnone] at h
    · rfl

theorem register_of_free (h : r.taken e.key = false) : ∃ r', r.register e = .ok r' :=
  register_isOk fun x hx hkey => by
    rw [taken_iff.2 ⟨x, hx, hkey⟩] at h
    cases h

/-- An entry takes its own name and no other. -/
theorem taken_register (h : r.register e = .ok r') (key : String ⊕ String) :
    r'.taken key = (r.taken key || decide (e.key = key)) := by
  rw [Bool.eq_iff_iff, Bool.or_eq_true, taken_iff, taken_iff, decide_eq_true_iff]
  simp only [knows_register h, or_and_right, exists_or, exists_eq_left]

/-! ### Entries in a row -/

theorem registerAll_of_taken (h : r.taken e.key) (es : List (Registration κ)) :
    r.registerAll (e :: es) = (r, some (.alreadyRegistered (nameOf e.key))) := by
  rw [registerAll, register_of_taken h]

theorem registerAll_of_register (h : r.register e = .ok r') (es : List (Registration κ)) :
    r.registerAll (e :: es) = r'.registerAll es := by
  rw [registerAll, h]

/-- An entry does not matter to entries under other keys. -/
theorem taken_register_of_mem (h : r.register e = .ok r')
    (hes : ((e :: es).map Registration.key).Nodup) {e' : Registration κ} (he' : e' ∈ es) :
    r'.taken e'.key = r.taken e'.key := by
  have hne : e.key ≠ e'.key := fun heq =>
    (List.nodup_cons.1 hes).1 (heq ▸ List.mem_map_of_mem he')
  simp [taken_register h, hne]

/-- A row is refused at its first entry whose name is taken, and the entries before this one are
added. Entries that were made on the way do not change what is taken for the later ones, so the
test `p` may be made before the row. -/
theorem registerAll_spec {p : Registration κ → Bool} (hes : (es.map Registration.key).Nodup)
    (hp : ∀ e ∈ es, r.taken e.key = p e) :
    (r.registerAll es).2 = (es.find? p).map (fun e => .alreadyRegistered (nameOf e.key)) ∧
      ∀ x, (r.registerAll es).1.Knows x ↔ r.Knows x ∨ x ∈ es.takeWhile fun e => !p e := by
  induction es generalizing r with
  | nil => simp [registerAll]
  | cons e es ih =>
    rw [List.forall_mem_cons] at hp
    cases he : p e with
    | true => simp [registerAll_of_taken (hp.1.trans he), he]
    | false =>
      obtain ⟨r', hr'⟩ := register_of_free (hp.1.trans he)
      obtain ⟨hrefusal, hknows⟩ := ih (List.nodup_cons.1 hes).2 fun e' he' =>
        (taken_register_of_mem hr' hes he').trans (hp.2 e' he')
      rw [registerAll_of_register hr', List.find?_cons_of_neg (by simp [he]),
        List.takeWhile_cons_of_pos (by simp [he])]
      refine ⟨hrefusal, fun x => ?_⟩
      rw [hknows, knows_register hr', List.mem_cons, or_assoc]

/-- More rows of entries, be they of one entry or of many, do not lose anything. -/
theorem le_foldl_extend (r : Registry κ) (rows : List (List (Registration κ))) :
    r ≤ rows.foldl extend r := by
  induction rows generalizing r with
  | nil => exact le_refl r
  | cons row rows ih => exact (le_extend r row).trans (ih _)

/-! ### The dialect -/

/-- The registry after an attempt to make the entries of the dialect, with the refusal if there was
one. -/
def registerDialect (kind : ParameterKind → κ) (r : Registry κ) :
    Registry κ × Option DialectError :=
  r.registerAll (dialectAs kind)

variable (kind : ParameterKind → κ)

/-- This is the call for the entries of the dialect. -/
theorem call_registerDialect (r : Registry κ) :
    r.call kind .registerDialect = r.registerDialect kind :=
  rfl

/-- The names of the dialect in the order of the row. -/
theorem keys_dialectAs : (dialectAs kind).map Registration.key =
    [.inl "riscv.reg", .inl "riscv.label"] ++ (Opcode.all.map Opcode.name ++
      ["riscv.sltui", "riscv.label", "riscv.directive"]).map .inr := by
  rw [map_key_dialectAs, map_key_dialect, opStems]
  simp [Opcode.name, Function.comp_def]
  decide

/-- The row of the dialect starts with registers. -/
theorem exists_dialectAs_eq_cons :
    ∃ later, dialectAs kind = .attr "riscv.reg" (kind .register) :: later :=
  ⟨_, rfl⟩

/-- Registers are known under their name after any attempt, or another attribute is. -/
theorem taken_registerDialect (r : Registry κ) :
    (r.registerDialect kind).1.taken (.inl "riscv.reg") := by
  obtain ⟨later, hlater⟩ := exists_dialectAs_eq_cons kind
  rw [registerDialect, hlater]
  cases h : r.taken (.inl "riscv.reg") with
  | true => rwa [registerAll_of_taken (by exact h)]
  | false =>
    obtain ⟨r', hr'⟩ := register_of_free (e := .attr "riscv.reg" (kind .register)) (by exact h)
    have hfirst : r'.taken (.inl "riscv.reg") := by simp [taken_register hr', Registration.key]
    rw [registerAll_of_register hr']
    exact taken_of_le (le_extend r' later) hfirst

/-- Where the name of registers is taken, an attempt comes to nothing. -/
theorem registerDialect_of_taken (h : r.taken (.inl "riscv.reg")) :
    r.registerDialect kind = (r, some (.alreadyRegistered "riscv.reg")) := by
  obtain ⟨later, hlater⟩ := exists_dialectAs_eq_cons kind
  rw [registerDialect, hlater]
  exact registerAll_of_taken (e := .attr "riscv.reg" (kind .register)) h later

/-- No entry of the dialect is in the way of an attempt if all its names are free. -/
theorem forall_free_iff : (∀ e ∈ dialectAs kind, r.taken e.key = false) ↔
    (r.attribute? "riscv.reg" = none ∧ r.attribute? "riscv.label" = none) ∧
      (∀ opcode : Opcode, r.op? opcode.name = none) ∧ r.op? "riscv.sltui" = none ∧
        r.op? "riscv.label" = none ∧ r.op? "riscv.directive" = none := by
  have hkeys : (∀ e ∈ dialectAs kind, r.taken e.key = false) ↔
      ∀ key ∈ (dialectAs kind).map Registration.key, r.taken key = false :=
    (List.forall_mem_map (P := fun key => r.taken key = false)).symm
  rw [hkeys, keys_dialectAs]
  simp [taken, or_imp, forall_and, Opcode.mem_all, and_assoc]

/-- An attempt to register the dialect succeeds if no name of the dialect is taken, that of an
attribute among the attributes and that of an op among the ops. If not, it is refused for the first
name of the row that is taken; the row has the attributes first, then the catalog, the alias, labels
and directives. Either way the entries before this one are added, no others are, and none is lost.
Whatever is registered afterwards, every later attempt is refused for the name of registers and
leaves the registry as it is. -/
theorem registerDialect_exact (r : Registry κ) :
    (dialectAs kind).map Registration.key =
      [.inl "riscv.reg", .inl "riscv.label"] ++ (Opcode.all.map Opcode.name ++
        ["riscv.sltui", "riscv.label", "riscv.directive"]).map .inr ∧
    ((r.registerDialect kind).2 = none ↔
      (r.attribute? "riscv.reg" = none ∧ r.attribute? "riscv.label" = none) ∧
        (∀ opcode : Opcode, r.op? opcode.name = none) ∧ r.op? "riscv.sltui" = none ∧
          r.op? "riscv.label" = none ∧ r.op? "riscv.directive" = none) ∧
    (r.registerDialect kind).2 = ((dialectAs kind).find? fun e => r.taken e.key).map
      (fun e => .alreadyRegistered (nameOf e.key)) ∧
    (∀ x, (r.registerDialect kind).1.Knows x ↔
      r.Knows x ∨ x ∈ (dialectAs kind).takeWhile fun e => !r.taken e.key) ∧
    r ≤ (r.registerDialect kind).1 ∧
    ∀ rows : List (List (Registration κ)),
      let later := rows.foldl extend (r.registerDialect kind).1
      later.registerDialect kind = (later, some (.alreadyRegistered "riscv.reg")) := by
  obtain ⟨hrefusal, hknows⟩ := registerAll_spec (r := r) (nodup_keys_dialectAs kind) fun _ _ => rfl
  refine ⟨keys_dialectAs kind, ?_, hrefusal, hknows, le_extend r _, fun rows => ?_⟩
  · rw [← forall_free_iff kind, registerDialect, hrefusal, Option.map_eq_none_iff,
      List.find?_eq_none]
    simp only [Bool.not_eq_true]
  · exact registerDialect_of_taken kind
      (taken_of_le (le_foldl_extend _ rows) (taken_registerDialect kind r))

/-- A label that goes by the name of an instruction leaves two attributes and four more ops. -/
example :
    let after := (empty.extend [.op "riscv.lw" .label]).registerDialect id
    after.2 = some (.alreadyRegistered "riscv.lw") ∧ after.1.attributes.size = 2 ∧
      after.1.ops.names = ["riscv.lb", "riscv.lbu", "riscv.lh", "riscv.lhu", "riscv.lw"] := by
  decide

end Registry

end RiscvDialect
