import ScopeScript.Execution
import ScopeScript.Proofs.Program.Depiction

/-!
# Well-formed programs

A program is well-formed when it has a root scope and every statement of every scope depicts one: no
statement stands where a value is needed, and a scope number is that of a scope that opens later.
`sizeFrom` counts what the scopes from some number on hold; it is the measure by which nested scopes
shrink. A compiled program is well-formed (`Program.wellFormed_of_compile`).
-/

namespace ScopeScript

namespace Program

/-- Node `n` is a statement of scope `i`. -/
def States (p : Program) (i : ScopeId) (n : Node) : Prop :=
  ∃ sc, p.scope? i = some sc ∧ n ∈ sc.statements

/-- The name is bound by a public statement somewhere in the program. -/
def Publishes (p : Program) (name : String) : Prop :=
  ∃ i value offset, p.States i (.bind name value true offset)

/-- A root scope, and in every scope nothing but statements. -/
structure WellFormed (p : Program) : Prop where
  root : ∃ sc, p.scope? p.root = some sc
  statements : ∀ {i n}, p.States i n → ∃ st, p.DepictsStmt i st n

theorem DepictsStmts.of_mem {p : Program} {i : ScopeId} {n : Node} :
    ∀ {ss ns}, p.DepictsStmts i ss ns → n ∈ ns → ∃ st, p.DepictsStmt i st n
  | _, _, .nil _, hn => by simp at hn
  | _, _, .cons h hs, hn => by
    rcases List.mem_cons.1 hn with rfl | hn
    · exact ⟨_, h⟩
    · exact hs.of_mem hn

theorem DepictsExprs.of_mem {p : Program} {i : ScopeId} {n : Node} :
    ∀ {es ns}, p.DepictsExprs i es ns → n ∈ ns → ∃ e, p.DepictsExpr i e n
  | _, _, .nil _, hn => by simp at hn
  | _, _, .cons h hs, hn => by
    rcases List.mem_cons.1 hn with rfl | hn
    · exact ⟨_, h⟩
    · exact hs.of_mem hn

theorem DepictsBlock.exists_scope {p : Program} {parent : Option ScopeId} {capture : Capture}
    {id : ScopeId} {b : Tree.Block} (h : p.DepictsBlock parent capture id b) :
    ∃ sc, p.scope? id = some sc ∧ sc.capture = capture := by
  obtain ⟨hsc, -⟩ := h
  exact ⟨_, hsc, rfl⟩

theorem wellFormed_ofTree (root : Tree.Block) : (ofTree root).WellFormed where
  root := by
    obtain ⟨sc, hsc, -⟩ := (depicts_ofTree root).exists_scope
    exact ⟨sc, hsc⟩
  statements := by
    rintro i n ⟨sc, hsc, hn⟩
    obtain ⟨_, hb⟩ := exists_block hsc
    obtain ⟨hsc', hs⟩ := hb
    rw [hsc, Option.some.injEq] at hsc'
    rw [hsc'] at hn
    exact hs.of_mem hn

theorem wellFormed_of_compile {source : String} {p : Program} (h : compile source = .ok p) :
    p.WellFormed := by
  unfold compile at h
  split at h
  · cases h
  · unfold ofTokens at h
    split at h
    · cases h
    · cases h
      exact wellFormed_ofTree _

end Program

/-! ## Parts of a statement -/

namespace Node

/-- The expression that a statement computes first. -/
def subject? : Node → Option Node
  | .bind _ e _ _ | .set _ _ e _ | .branch e _ _ | .print e _ | .result e _ => some e
  | .scope _ _ | .empty _ => none
  | e => some e

/-- The scope that a statement enters in the place it stands in. -/
def body? : Node → Option ScopeId
  | .branch _ id _ | .scope id _ => some id
  | _ => none

theorem size_subject_le {n e : Node} (h : n.subject? = some e) : e.size ≤ n.size := by
  cases n <;> cases h <;> simp [size]

end Node

namespace Program.WellFormed

variable {p : Program} {i : ScopeId} {n : Node}

/-- What a statement computes is an expression of its scope. -/
theorem subject (hp : p.WellFormed) (h : p.States i n) {e : Node} (he : n.subject? = some e) :
    ∃ ex, p.DepictsExpr i ex e := by
  obtain ⟨st, hd⟩ := hp.statements h
  cases hd with
  | eval hd => cases hd <;> cases he <;> exact ⟨_, by constructor <;> assumption⟩
  | block => cases he
  | empty => cases he
  | _ => cases he; exact ⟨_, by assumption⟩

/-- The scope that a statement enters opens later and shares the store around it. -/
theorem body (hp : p.WellFormed) (h : p.States i n) {id : ScopeId} (hid : n.body? = some id) :
    i < id ∧ ∃ sc, p.scope? id = some sc ∧ sc.capture = .shared := by
  obtain ⟨st, hd⟩ := hp.statements h
  cases hd with
  | branch _ _ hlt hb => cases hid; exact ⟨hlt, hb.exists_scope⟩
  | block _ hlt hb => cases hid; exact ⟨hlt, hb.exists_scope⟩
  | eval hd =>
    cases hd with
    | scope _ hlt hb => cases hid; exact ⟨hlt, hb.exists_scope⟩
    | _ => cases hid
  | _ => cases hid

end Program.WellFormed

theorem Node.size_pos (n : Node) : 0 < n.size := by
  cases n <;> simp [Node.size]

theorem Node.size_le_sizeAll {n : Node} : ∀ {ns : List Node}, n ∈ ns → n.size ≤ Node.sizeAll ns
  | n' :: ns, h => by
    rw [Node.sizeAll]
    rcases List.mem_cons.1 h with rfl | h
    · exact Nat.le_add_right _ _
    · have := Node.size_le_sizeAll h
      omega

theorem Scope.sizeAll_append (l l' : List Scope) :
    Scope.sizeAll (l ++ l') = Scope.sizeAll l + Scope.sizeAll l' := by
  induction l with
  | nil => simp [Scope.sizeAll]
  | cons sc l ih =>
    simp only [List.cons_append, Scope.sizeAll, ih]
    omega

namespace Program

/-- The number of nodes and scopes from scope `i` on. -/
def sizeFrom (p : Program) (i : ScopeId) : Nat := Scope.sizeAll (p.scopes.toList.drop i)

theorem sizeFrom_le_of_le (p : Program) {i j : ScopeId} (h : i ≤ j) :
    p.sizeFrom j ≤ p.sizeFrom i := by
  obtain ⟨k, rfl⟩ := Nat.exists_eq_add_of_le h
  have hsplit : Scope.sizeAll (p.scopes.toList.drop i) =
      Scope.sizeAll ((p.scopes.toList.drop i).take k) +
        Scope.sizeAll (p.scopes.toList.drop (i + k)) := by
    rw [← Scope.sizeAll_append, ← List.drop_drop, List.take_append_drop]
  unfold sizeFrom
  omega

theorem sizeFrom_le_size (p : Program) (i : ScopeId) : p.sizeFrom i ≤ p.size :=
  p.sizeFrom_le_of_le (Nat.zero_le i)

/-- A statement and the scopes that open after its own are smaller than what starts with its own. -/
theorem States.size_lt {p : Program} {i : ScopeId} {n : Node} (h : p.States i n) :
    n.size + p.sizeFrom (i + 1) < p.sizeFrom i := by
  obtain ⟨sc, hsc, hn⟩ := h
  have hdrop : p.scopes.toList.drop i = sc :: p.scopes.toList.drop (i + 1) := by
    rw [scope?, ← Array.getElem?_toList] at hsc
    exact List.drop_eq_getElem?_toList_append.trans (by rw [hsc]; rfl)
  have hle := Node.size_le_sizeAll hn
  simp only [sizeFrom, hdrop, Scope.sizeAll]
  omega

end Program

end ScopeScript
