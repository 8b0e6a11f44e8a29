import XmlDiagnostics.Pass
import XmlDiagnostics.Proofs.SessionLog

/-!
# Formatters by the addresses that they were registered for

Tools register formatters by the address of a domain, and the same address may come again.
`Registry.Holds` says what a registry then is, in terms of addresses alone: the formatter of an
address is the one that was registered for it last, and the domains stand in the order in which
their addresses came first.  The built-in registry is of that kind too, as if its four formatters
had been registered one after the other (`Registry.Starts.holds`).

`Registry.Holds.insert` is the step, `Session.holds_run` the run, and `Session.run_registers` says
what a tool sees of it.
-/

namespace XmlDiagnostics

namespace Message

/-- The addresses of the domains that have names of their own. -/
def Domain.knownAddresses : List String :=
  [xmlAddress, namespacesAddress, schemaAddress, modelAddress]

theorem Domain.ofAddress_ne_other {address : String} (h : address ∈ knownAddresses)
    (other : String) : ofAddress address ≠ .other other := by
  have hknown : ∀ address ∈ knownAddresses,
      ofAddress address ∈ [xml, namespaces, schema, model] := by
    decide
  intro heq
  have hmem := hknown address h
  rw [heq] at hmem
  simp at hmem

namespace Registry

/-- The formatters of the built-in registry with the addresses of their domains, in order. -/
def builtinRegistrations : List (String × Wording) :=
  [(Domain.xmlAddress, Formatter.catalog Catalog.xml),
   (Domain.namespacesAddress, Formatter.catalog Catalog.xml),
   (Domain.schemaAddress, Formatter.schema),
   (Domain.modelAddress, Formatter.catalog Catalog.model)]

/-- What a registry is after some registrations, in order. -/
structure Holds (registry : Registry) (registered : List (String × Wording)) : Prop where
  /-- The formatter for an address is the one that was registered for it last. -/
  find? : ∀ address, registry.find? (.ofAddress address) = registered.reverse.lookup address
  /-- The domains stand in the order in which they were registered first. -/
  keys : registry.keys = (registered.map fun step ↦ Domain.ofAddress step.1).eraseDups
  /-- No domain stands there twice. -/
  nodup : registry.keys.Nodup

variable {registry : Registry} {registered : List (String × Wording)}

theorem Holds.contains_iff (h : registry.Holds registered) {address : String} :
    registry.contains (.ofAddress address) = true ↔ address ∈ registered.map (·.1) := by
  rw [OrderedMap.contains, h.find?, List.lookup_isSome_iff]
  simp only [List.mem_reverse, beq_iff_eq, List.mem_map]
  constructor
  · rintro ⟨step, hstep, heq⟩
    exact ⟨step, hstep, heq.symm⟩
  · rintro ⟨step, hstep, heq⟩
    exact ⟨step, hstep, heq.symm⟩

theorem holds_empty : Holds .empty [] where
  find? _ := rfl
  keys := rfl
  nodup := List.nodup_nil

/-- One more registration. -/
theorem Holds.insert (h : registry.Holds registered) (address : String) (formatter : Wording) :
    Holds (registry.insert (.ofAddress address) formatter)
      (registered ++ [(address, formatter)]) where
  find? wanted := by
    rw [OrderedMap.find?_insert, h.find?, List.reverse_append, List.reverse_singleton,
      List.singleton_append, List.lookup_cons]
    by_cases heq : wanted = address
    · rw [if_pos (congrArg _ heq), beq_iff_eq.mpr heq]
    · rw [if_neg (mt Domain.ofAddress_inj.mp heq), beq_eq_false_iff_ne.mpr heq]
  keys := by
    rw [OrderedMap.keys_insert, h.keys, List.map_append, List.eraseDups_append, List.map_singleton]
    by_cases hmem : Domain.ofAddress address ∈ registered.map fun step ↦ Domain.ofAddress step.1
    · rw [if_pos (List.mem_eraseDups.mpr hmem)]
      simp [List.cons_removeAll, hmem]
    · rw [if_neg (mt List.mem_eraseDups.mp hmem)]
      simp [List.cons_removeAll, List.eraseDups_cons, hmem]
  nodup := by
    rw [OrderedMap.keys_insert]
    split
    · exact h.nodup
    · rename_i hmem
      refine List.nodup_append.mpr ⟨h.nodup, List.nodup_singleton _, fun d hd d' hd' heq ↦ hmem ?_⟩
      rw [List.mem_singleton] at hd'
      rw [← hd', ← heq]
      exact hd

/-- The registries that a session begins with, and the registrations that they stand for. -/
inductive Starts : Registry → List (String × Wording) → Prop
  /-- The registry without formatters. -/
  | empty : Starts .empty []
  /-- The built-in registry. -/
  | builtin : Starts Registry.builtin builtinRegistrations

theorem Starts.holds {held : List (String × Wording)} (h : registry.Starts held) :
    registry.Holds held := by
  cases h with
  | empty => exact holds_empty
  | builtin =>
    exact (((holds_empty.insert Domain.xmlAddress (Formatter.catalog Catalog.xml)).insert
      Domain.namespacesAddress (Formatter.catalog Catalog.xml)).insert
        Domain.schemaAddress Formatter.schema).insert
          Domain.modelAddress (Formatter.catalog Catalog.model)

theorem Starts.nodup {held : List (String × Wording)} (h : registry.Starts held) :
    (held.map (·.1)).Nodup := by
  cases h with
  | empty => exact List.nodup_nil
  | builtin =>
    show Domain.knownAddresses.Nodup
    decide

/-- What is registered for a known address has a known domain. -/
theorem Holds.not_mem_knownAddresses (h : registry.Holds registered) {address : String}
    (hmem : Domain.other address ∈ registry.keys) : address ∉ Domain.knownAddresses := by
  rw [h.keys, List.mem_eraseDups, List.mem_map] at hmem
  obtain ⟨step, -, hstep⟩ := hmem
  have haddress : step.1 = address := by
    have heq := congrArg Domain.address hstep
    rwa [Domain.address_ofAddress] at heq
  intro hknown
  exact Domain.ofAddress_ne_other hknown address (haddress ▸ hstep)

end Registry

end Message

namespace Session

open Message (Domain Registry Wording)

/-- The steps of a session that register formatters for addresses. -/
def registrations (steps : List (String × Wording)) : List Step :=
  steps.map fun step ↦ .register step.1 step.2

variable (s : Session) {registered : List (String × Wording)}

/-- After some registrations, a registry holds them too. -/
theorem holds_run (h : s.reporter.formatters.Holds registered) (steps : List (String × Wording)) :
    (s.run (registrations steps)).1.reporter.formatters.Holds (registered ++ steps) := by
  induction steps generalizing s registered with
  | nil => rwa [List.append_nil]
  | cons step steps ih =>
    rw [← List.singleton_append, ← List.append_assoc]
    exact ih (s.step (.register step.1 step.2)).1 (h.insert step.1 step.2)

/-- No registration moves a domain: it keeps the domains as the beginning of the new ones. -/
theorem keys_prefix_run (steps : List (String × Wording)) :
    s.reporter.formatters.keys <+: (s.run (registrations steps)).1.reporter.formatters.keys := by
  induction steps generalizing s with
  | nil => exact List.prefix_rfl
  | cons step steps ih =>
    refine List.IsPrefix.trans ?_ (ih (s.step (.register step.1 step.2)).1)
    show s.reporter.formatters.keys <+: (s.reporter.formatters.insert _ _).keys
    rw [OrderedMap.keys_insert]
    split
    · exact List.prefix_rfl
    · exact List.prefix_append _ _

/-- After some of the registrations, the domains are the beginning of those that there are in the
end. -/
theorem keys_prefix_run_take (steps : List (String × Wording)) (k : Nat) :
    (s.run (registrations (steps.take k))).1.reporter.formatters.keys <+:
      (s.run (registrations steps)).1.reporter.formatters.keys := by
  induction steps generalizing s k with
  | nil => cases k <;> exact List.prefix_rfl
  | cons step steps ih =>
    cases k with
    | zero => exact keys_prefix_run s (step :: steps)
    | succ k => exact ih (s.step (.register step.1 step.2)).1 k

/-- A registration answers whether there is a formatter for the domain after those before it. -/
theorem getElem?_run_registrations {steps : List (String × Wording)} {k : Nat} {address : String}
    {formatter : Wording} (hk : steps[k]? = some (address, formatter)) :
    (s.run (registrations steps)).2[k]? =
      some (.registered ((s.run (registrations (steps.take k))).1.reporter.formatters.contains
        (.ofAddress address))) := by
  induction steps generalizing s k with
  | nil => cases hk
  | cons step steps ih =>
    cases k with
    | zero =>
      cases hk
      rfl
    | succ k => exact ih (s.step (.register step.1 step.2)).1 hk

/-- **The last registration of an address counts.**  Take a session that begins with no formatters
or with the built-in ones, and any registrations.  The formatter of a domain is the last one that
was registered for its address, or else the built-in one, if there is one.  A registration answers
that it replaces a formatter just if there was one for the address.  The domains stand there once
each, in the order in which their addresses came first, and a later registration moves none of
them.  Every address is that of one domain, so a known one is never registered as another
domain. -/
theorem run_registers {held : List (String × Wording)} (h : s.reporter.formatters.Starts held)
    (steps : List (String × Wording)) :
    let registry := (s.run (registrations steps)).1.reporter.formatters
    (∀ address, registry.find? (.ofAddress address) =
        (steps.reverse.lookup address).or (held.lookup address)) ∧
      (∀ k address formatter, steps[k]? = some (address, formatter) →
        ∃ replaced, (s.run (registrations steps)).2[k]? = some (.registered replaced) ∧
          (replaced = true ↔ address ∈ (held ++ steps.take k).map (·.1))) ∧
      registry.keys = ((held ++ steps).map fun step ↦ Domain.ofAddress step.1).eraseDups ∧
      registry.keys.Nodup ∧
      (∀ k, (s.run (registrations (steps.take k))).1.reporter.formatters.keys <+: registry.keys) ∧
      (∀ address, (Domain.ofAddress address).address = address) ∧
      (∀ address address', Domain.ofAddress address = Domain.ofAddress address' ↔
        address = address') ∧
      ∀ address, Domain.other address ∈ registry.keys → address ∉ Domain.knownAddresses := by
  intro registry
  have hholds : registry.Holds (held ++ steps) := s.holds_run h.holds steps
  refine ⟨fun address ↦ ?_, fun k address formatter hk ↦ ?_, hholds.keys, hholds.nodup,
    s.keys_prefix_run_take steps, Domain.address_ofAddress, fun _ _ ↦ Domain.ofAddress_inj,
    fun address ↦ hholds.not_mem_knownAddresses⟩
  · have hheld : held.reverse.lookup address = held.lookup address :=
      (OrderedMap.lookup_eq_of_perm (List.reverse_perm held).symm h.nodup address).symm
    rw [hholds.find?, List.reverse_append, List.lookup_append, hheld]
  · have hbefore := s.holds_run h.holds (steps.take k)
    exact ⟨_, s.getElem?_run_registrations hk, hbefore.contains_iff⟩

/-- A tool registers a formatter of its own, replaces the one of XML Schema and then its own one.
Both keep their places, and the second one of its own counts. -/
theorem run_registers_again :
    let own : Wording := ⟨fun _ key _ ↦ key⟩
    let own' : Wording := ⟨fun _ key _ ↦ key ++ "!"⟩
    let other : Wording := ⟨fun _ key _ ↦ key ++ "?"⟩
    let s := start (Pass.reporter {} (.ofString "<a/>"))
    let steps := [("urn:tool", own), (Domain.schemaAddress, other), ("urn:tool", own')]
    let registry := (s.run (registrations steps)).1.reporter.formatters
    registry.keys = [.xml, .namespaces, .schema, .model, .other "urn:tool"] ∧
      registry.find? (.ofAddress "urn:tool") = some own' ∧
      registry.find? (.ofAddress Domain.schemaAddress) = some other := by
  intro own own' other s steps registry
  have hstarts : s.reporter.formatters.Starts Registry.builtinRegistrations := .builtin
  obtain ⟨hfind, -, hkeys, -⟩ := s.run_registers hstarts steps
  refine ⟨hkeys.trans rfl, ?_, ?_⟩
  · exact (hfind "urn:tool").trans rfl
  · exact (hfind Domain.schemaAddress).trans rfl

end Session

end XmlDiagnostics
