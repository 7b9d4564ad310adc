import ScopeScript.Proofs.Offset.Parsing
import ScopeScript.Proofs.Offset.Running
import ScopeScript.Proofs.Program.Arena

/-!
# Executions carry offsets along

The stages put together: token lists that match give programs that match, or faults that match
(`Program.matches_ofTokens`), and their executions match (`Execution.matches_ofTokens`). The
execution of a source text is that of its tokens (`execute_of_scan`), so all that a source text
contributes beside the kinds of its tokens are the offsets in its result.
-/

namespace ScopeScript

open Token (AllMatch)

variable {A : Alignment} {ts ts' : List Token}

namespace Program

theorem matches_ofTokens (h : AllMatch A ts ts') (hne : ts ≠ []) :
    (∃ p p', ofTokens ts = .ok p ∧ ofTokens ts' = .ok p' ∧ Program.Matches A p p') ∨
      ∃ f f', ofTokens ts = .error f ∧ ofTokens ts' = .error f' ∧ Fault.Matches A f f' := by
  unfold ofTokens
  obtain ⟨b, b', hb, hb', hmatch⟩ | ⟨e, k, o, o', he, he', ho⟩ := Tree.matches_parse h hne
  · rw [hb, hb']
    exact .inl ⟨_, _, rfl, rfl, matches_ofTree hmatch⟩
  · rw [he, he']
    exact .inr ⟨_, _, rfl, rfl, .parse e k ho⟩

/-- The outermost scope of a program that is read from tokens has a first statement. -/
theorem exists_first {p : Program} (h : ofTokens ts = .ok p) :
    ∃ root n ns, p.scope? p.root = some root ∧ root.statements = n :: ns := by
  obtain ⟨⟨ss, o⟩, ⟨hss, -⟩, rfl⟩ := exists_filled h
  obtain ⟨n, ns, hns⟩ := List.exists_cons_of_ne_nil (Layout.stmts_ne_nil hss 0 1)
  exact ⟨⟨0, none, .fresh, (Layout.stmts 0 1 ss).1, o⟩, n, ns, rfl, hns⟩

end Program

theorem Fault.Matches.offset {f f' : Fault} (h : Fault.Matches A f f') :
    A.place f.offset f'.offset := by
  cases h with
  | lex _ ho => exact ho
  | parse _ _ ho => exact ho
  | run hh => cases hh <;> assumption

namespace Execution

def ofTokens (tokens : List Token) (limit : Nat) : Execution :=
  match Program.ofTokens tokens with
  | .error f => { output := #[], globals := [], fault := some f, last := f.offset }
  | .ok program =>
    match Setup.run { program, limit } {} with
    | .ok _ m => .ofMachine m none
    | .error h m => .ofMachine m (some (.run h))

theorem matches_ofMachine {m m' : Machine} {fault fault' : Option Fault}
    (hm : Machine.Matches A m m') (hf : Option.Rel (Fault.Matches A) fault fault') :
    Execution.Matches A (ofMachine m fault) (ofMachine m' fault') := by
  refine ⟨hm.transcript, ?_, hf, hm.location⟩
  show m'.bindings = m.bindings
  rw [Machine.bindings, Machine.bindings, hm.memory, hm.globals]

/-- The executions of token lists that match. -/
theorem matches_ofTokens (h : AllMatch A ts ts') (hne : ts ≠ []) (limit : Nat) :
    Execution.Matches A (ofTokens ts limit) (ofTokens ts' limit) := by
  unfold ofTokens
  obtain ⟨p, p', hp, hp', hmatch⟩ | ⟨f, f', hf, hf', hmatch⟩ := Program.matches_ofTokens h hne
  · obtain ⟨root, n, ns, hroot, hns⟩ := Program.exists_first hp
    have hsetup : Setup.Matches A ⟨p, limit, []⟩ ⟨p', limit, []⟩ := ⟨hmatch, rfl⟩
    have hrun := Setup.matches_run hsetup rfl hroot hns {}
    rw [hp, hp']
    dsimp only
    generalize Setup.run ⟨p, limit, []⟩ {} = r at hrun ⊢
    generalize Setup.run ⟨p', limit, []⟩ {} = r' at hrun ⊢
    cases hrun with
    | ok _ hm => exact matches_ofMachine hm .none
    | error hh hm => exact matches_ofMachine hm (.some (.run hh))
  · rw [hf, hf']
    exact ⟨.nil, rfl, .some hmatch, hmatch.offset⟩

end Execution

theorem Token.ne_nil_of_scan {source : String} (h : scan source = .ok ts) : ts ≠ [] := by
  unfold scan at h
  split at h
  · cases h
  · cases h
    exact List.cons_ne_nil _ _

/-- A source text is executed through its tokens. -/
theorem execute_of_scan {source : String} (h : Token.scan source = .ok ts) (limit : Nat) :
    execute source limit = .ofTokens ts limit := by
  have hcompile : compile source = Program.ofTokens ts := by simp only [compile, h]
  unfold execute Execution.ofTokens
  cases hp : Program.ofTokens ts with
  | error f => simp only [hcompile, hp]
  | ok p => cases hr : Setup.run ⟨p, limit, []⟩ {} <;> simp only [hcompile, hp, hr]

/-- A source text without tokens is not executed at all. -/
theorem execute_of_scan_error {source : String} {e : LexFault} (h : Token.scan source = .error e)
    (limit : Nat) : execute source limit =
      { output := #[], globals := [], fault := some (.lex e), last := e.offset } := by
  simp only [execute, compile, h, Fault.offset]

end ScopeScript
