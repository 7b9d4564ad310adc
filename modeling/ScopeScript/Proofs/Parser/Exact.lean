import ScopeScript.Execution
import ScopeScript.Proofs.Parser.Completeness
import ScopeScript.Proofs.Program.Depiction

/-!
# The parser is exact

A token list is accepted just when the tokens in front of the first `finish` are derivable as a
valued scope, and the program is that of the derivation. There is only one.
-/

namespace ScopeScript

open Grammar (Derivation)

namespace Tree

open Parse

theorem whole_ok {n : Nat} {ts r : List Token} {root : Block} :
    whole n ts = .ok root r ↔ block n true ts = .ok root [] ∧ r = [] := by
  simp only [whole, bind_ok, refuse_ok, pure_ok]
  constructor
  · rintro ⟨_, _, hb, _, _, ⟨he, rfl⟩, rfl, rfl⟩
    simp_all
  · rintro ⟨hb, rfl⟩
    exact ⟨root, [], hb, (), [], ⟨rfl, rfl⟩, rfl, rfl⟩

theorem parse_ok {ts : List Token} {root : Block} :
    parse ts = .ok root ↔ block (fuelFor ts) true (body ts) = .ok root [] := by
  unfold parse
  cases h : whole (fuelFor ts) (body ts) with
  | ok root' r =>
    obtain ⟨hb, rfl⟩ := whole_ok.1 h
    simp [hb]
  | error e r =>
    have hb : block (fuelFor ts) true (body ts) ≠ .ok root [] := fun hb => by
      rw [whole_ok.2 ⟨hb, rfl⟩] at h
      cases h
    cases r <;> simp [hb]

theorem fuel_le_fuelFor {ts : List Token} {d : Derivation (.scope true)}
    (h : d.tokens = body ts) : d.fuel ≤ fuelFor ts := by
  have hle : (body ts).length ≤ ts.length := (List.takeWhile_sublist _).length_le
  simp only [Grammar.Derivation.fuel, Grammar.Symbol.cost, fuelFor, h]
  omega

theorem parse_eq_ok_iff {ts : List Token} {root : Block} :
    parse ts = .ok root ↔ ∃ d : Derivation (.scope true), d.tokens = body ts ∧ d.tree = root := by
  rw [parse_ok]
  constructor
  · intro h
    obtain ⟨d, hd, rfl⟩ := (sound _).block h
    exact ⟨d, by simpa using hd.symm, rfl⟩
  · rintro ⟨d, hd, rfl⟩
    have := read d (fuelFor ts) [] (fuel_le_fuelFor hd)
    rwa [List.append_nil, hd] at this

end Tree

/-- The parser accepts exactly the derivable token lists, the program is the tree of the derivation,
down to the offset of every node, and the derivation is unique. -/
theorem Program.ofTokens_eq_ok_iff (ts : List Token) :
    (∀ p, Program.ofTokens ts = .ok p ↔ ∃ d : Derivation (.scope true),
      d.tokens = Tree.body ts ∧ p = .ofTree d.tree ∧ p.Depicts d.tree) ∧
    ∀ d d' : Derivation (.scope true), d.tokens = Tree.body ts → d'.tokens = Tree.body ts →
      d = d' := by
  constructor
  · intro p
    have hparse : Program.ofTokens ts = .ok p ↔ ∃ root, Tree.parse ts = .ok root ∧
        p = .ofTree root := by
      unfold Program.ofTokens
      cases Tree.parse ts <;> simp [eq_comm]
    simp only [hparse, Tree.parse_eq_ok_iff]
    constructor
    · rintro ⟨_, ⟨d, hd, rfl⟩, rfl⟩
      exact ⟨d, hd, rfl, Program.depicts_ofTree d.tree⟩
    · rintro ⟨d, hd, rfl, -⟩
      exact ⟨d.tree, ⟨d, hd, rfl⟩, rfl⟩
  · intro d d' hd hd'
    exact (d.unique d' [] [] trivial trivial (by rw [hd, hd'])).1

end ScopeScript
