import Mathlib
import ScopeScript.Proofs.Offset.Execution

/-!
# Moving offsets

`relocate g` puts `g o` in the place of every offset `o`: in tokens, programs and machines, in
faults and executions. Relocation is matching along the graph of `g` (`Alignment.along`), so it
commutes with every stage that carries offsets along: the program of relocated tokens is the
relocated program, and a relocated program has the relocated run.

Every token list is the relocation of the one in which the token of number `i` has offset `i`
(`Token.numbered`). So what a source text does is fixed by the kinds of its tokens, up to offsets.
-/

namespace ScopeScript

def Token.relocate (g : Nat → Nat) (t : Token) : Token := ⟨t.kind, g t.offset⟩

namespace Node

mutual

def relocate (g : Nat → Nat) : Node → Node
  | .number x o => .number x (g o)
  | .text s o => .text s (g o)
  | .bool b o => .bool b (g o)
  | .nil o => .nil (g o)
  | .var s o => .var s (g o)
  | .unary op n o => .unary op (n.relocate g) (g o)
  | .binary op l r o => .binary op (l.relocate g) (r.relocate g) (g o)
  | .call f args o => .call (f.relocate g) (relocateAll g args) (g o)
  | .function params body o => .function params body (g o)
  | .scope id o => .scope id (g o)
  | .bind s n isPublic o => .bind s (n.relocate g) isPublic (g o)
  | .set s op n o => .set s op (n.relocate g) (g o)
  | .branch n body o => .branch (n.relocate g) body (g o)
  | .print n o => .print (n.relocate g) (g o)
  | .result n o => .result (n.relocate g) (g o)
  | .empty o => .empty (g o)

def relocateAll (g : Nat → Nat) : List Node → List Node
  | [] => []
  | n :: ns => n.relocate g :: relocateAll g ns

end

end Node

def Scope.relocate (g : Nat → Nat) (s : Scope) : Scope :=
  { s with statements := Node.relocateAll g s.statements, offset := g s.offset }

def Program.relocate (g : Nat → Nat) (p : Program) : Program :=
  { p with scopes := p.scopes.map (·.relocate g) }

def Setup.relocate (g : Nat → Nat) (s : Setup) : Setup := { s with program := s.program.relocate g }

def Line.relocate (g : Nat → Nat) (l : Line) : Line := { l with offset := g l.offset }

def Halt.relocate (g : Nat → Nat) : Halt → Halt
  | .fault cause o => .fault cause (g o)
  | .outOfFuel o => .outOfFuel (g o)

def Fault.relocate (g : Nat → Nat) : Fault → Fault
  | .lex f => .lex { f with offset := g f.offset }
  | .parse f => .parse { f with found := f.found.relocate g }
  | .run h => .run (h.relocate g)

def Machine.relocate (g : Nat → Nat) (m : Machine) : Machine :=
  { m with transcript := m.transcript.map (·.relocate g), location := g m.location }

/-- The halt and the machine of a result are relocated, its value is not. -/
def Eval.relocate {α : Type} (g : Nat → Nat) :
    EStateM.Result Halt Machine α → EStateM.Result Halt Machine α
  | .ok a m => .ok a (m.relocate g)
  | .error h m => .error (h.relocate g) (m.relocate g)

def Execution.relocate (g : Nat → Nat) (e : Execution) : Execution :=
  { output := e.output.map (·.relocate g), globals := e.globals,
    fault := e.fault.map (·.relocate g), last := g e.last }

/-! ## Relocation as matching -/

/-- Every offset stands for its image. -/
def Alignment.along (g : Nat → Nat) : Alignment := ⟨fun o o' => o' = g o, fun _ _ => True⟩

variable {g : Nat → Nat}

section

variable {α : Type} {R : α → α → Prop} {f : α → α} (h : ∀ a a', R a a' ↔ a' = f a)
include h

theorem forall₂_iff_eq_map {as as' : List α} : List.Forall₂ R as as' ↔ as' = as.map f := by
  constructor
  · intro hs
    induction hs with
    | nil => rfl
    | cons ha _ ih => rw [(h _ _).1 ha, ih, List.map_cons]
  · rintro rfl
    rw [List.forall₂_map_right_iff, List.forall₂_same]
    exact fun a _ => (h _ _).2 rfl

theorem forall₂_toList_iff_eq_map {as as' : Array α} :
    List.Forall₂ R as.toList as'.toList ↔ as' = as.map f := by
  rw [forall₂_iff_eq_map h, ← Array.toList_map, Array.toList_inj]

end

theorem Token.matches_iff (g : Nat → Nat) (t t' : Token) :
    Token.Matches (.along g) t t' ↔ t' = t.relocate g := by
  constructor
  · rintro ⟨ho, _⟩
    rw [ho]
    rfl
  · rintro rfl
    exact .mk rfl fun _ => trivial

theorem Token.allMatch_relocate (g : Nat → Nat) (ts : List Token) :
    Token.AllMatch (.along g) ts (ts.map (·.relocate g)) :=
  (forall₂_iff_eq_map (Token.matches_iff g)).2 rfl

namespace Node

mutual

theorem matches_relocate : ∀ n : Node, Node.Matches (.along g) n (n.relocate g)
  | .number x _ => .number x rfl
  | .text s _ => .text s rfl
  | .bool b _ => .bool b rfl
  | .nil _ => .nil rfl
  | .var s _ => .var s rfl
  | .unary op n _ => .unary op (matches_relocate n) rfl
  | .binary op l r _ => .binary op (matches_relocate l) (matches_relocate r) rfl
  | .call f args _ => .call (matches_relocate f) (matches_relocateAll args) rfl
  | .function params body _ => .function params body rfl
  | .scope id _ => .scope id rfl
  | .bind s n isPublic _ => .bind s isPublic (matches_relocate n) rfl
  | .set s op n _ => .set s op (matches_relocate n) rfl
  | .branch n body _ => .branch body (matches_relocate n) rfl
  | .print n _ => .print (matches_relocate n) rfl trivial
  | .result n _ => .result (matches_relocate n) rfl
  | .empty _ => .empty rfl

theorem matches_relocateAll :
    ∀ ns : List Node, List.Forall₂ (Node.Matches (.along g)) ns (relocateAll g ns)
  | [] => .nil
  | n :: ns => .cons (matches_relocate n) (matches_relocateAll ns)

end

mutual

theorem eq_relocate : ∀ (n : Node) {n' : Node}, Node.Matches (.along g) n n' → n' = n.relocate g
  | .number .., _, .number _ rfl | .text .., _, .text _ rfl | .bool .., _, .bool _ rfl
  | .nil .., _, .nil rfl | .var .., _, .var _ rfl | .function .., _, .function _ _ rfl
  | .scope .., _, .scope _ rfl | .empty .., _, .empty rfl => rfl
  | .unary op n o, _, .unary _ h rfl => congrArg (Node.unary op · (g o)) (eq_relocate n h)
  | .binary op l r o, _, .binary _ hl hr rfl =>
    congrArg₂ (Node.binary op · · (g o)) (eq_relocate l hl) (eq_relocate r hr)
  | .call f args o, _, .call hf hargs rfl =>
    congrArg₂ (Node.call · · (g o)) (eq_relocate f hf) (eq_relocateAll args hargs)
  | .bind s n isPublic o, _, .bind _ _ h rfl =>
    congrArg (Node.bind s · isPublic (g o)) (eq_relocate n h)
  | .set s op n o, _, .set _ _ h rfl => congrArg (Node.set s op · (g o)) (eq_relocate n h)
  | .branch n body o, _, .branch _ h rfl => congrArg (Node.branch · body (g o)) (eq_relocate n h)
  | .print n o, _, .print h rfl _ => congrArg (Node.print · (g o)) (eq_relocate n h)
  | .result n o, _, .result h rfl => congrArg (Node.result · (g o)) (eq_relocate n h)
termination_by structural n => n

theorem eq_relocateAll : ∀ (ns : List Node) {ns' : List Node},
    List.Forall₂ (Node.Matches (.along g)) ns ns' → ns' = relocateAll g ns
  | [], _, .nil => rfl
  | n :: ns, _, .cons h hs => congrArg₂ List.cons (eq_relocate n h) (eq_relocateAll ns hs)
termination_by structural ns => ns

end

end Node

theorem Scope.matches_iff (g : Nat → Nat) (s s' : Scope) :
    Scope.Matches (.along g) s s' ↔ s' = s.relocate g := by
  constructor
  · rintro ⟨id, parent, capture, hns, ho⟩
    rw [Node.eq_relocateAll _ hns, ho]
    rfl
  · rintro rfl
    exact .mk s.id s.parent s.capture (Node.matches_relocateAll s.statements) rfl

theorem Program.matches_iff {p p' : Program} :
    Program.Matches (.along g) p p' ↔ p' = p.relocate g := by
  constructor
  · rintro ⟨hscopes, hroot⟩
    rw [forall₂_toList_iff_eq_map (Scope.matches_iff g)] at hscopes
    cases p'
    cases hscopes
    cases hroot
    rfl
  · rintro rfl
    exact ⟨(forall₂_toList_iff_eq_map (Scope.matches_iff g)).2 rfl, rfl⟩

theorem Line.matches_iff (g : Nat → Nat) (l l' : Line) :
    Line.Matches (.along g) l l' ↔ l' = l.relocate g := by
  constructor
  · rintro ⟨text, ho, _⟩
    rw [ho]
    rfl
  · rintro rfl
    exact .mk l.text rfl trivial

theorem Halt.Matches.eq_relocate {h h' : Halt} (hm : Halt.Matches (.along g) h h') :
    h' = h.relocate g := by
  cases hm with
  | fault cause ho => rw [ho]; rfl
  | outOfFuel ho => rw [ho]; rfl

theorem Fault.Matches.eq_relocate {f f' : Fault} (h : Fault.Matches (.along g) f f') :
    f' = f.relocate g := by
  cases h with
  | lex cause ho => rw [ho]; rfl
  | parse e k ho => rw [ho]; rfl
  | run hh => exact congrArg Fault.run hh.eq_relocate

theorem Machine.Matches.eq_relocate {m m' : Machine} (h : Machine.Matches (.along g) m m') :
    m' = m.relocate g := by
  have htranscript := (forall₂_toList_iff_eq_map (Line.matches_iff g)).1 h.transcript
  obtain ⟨hmemory, hglobals, -, hlocation, hdepth, hcalls, hfunctions⟩ := h
  cases m'
  simp only at hmemory hglobals hlocation hdepth hcalls hfunctions htranscript
  subst hmemory hglobals hlocation hdepth hcalls hfunctions htranscript
  rfl

theorem Execution.Matches.eq_relocate {e e' : Execution} (h : Execution.Matches (.along g) e e') :
    e' = e.relocate g := by
  have houtput := (forall₂_toList_iff_eq_map (Line.matches_iff g)).1 h.output
  have hfault : e'.fault = e.fault.map (·.relocate g) := by
    have hf := h.fault
    generalize e.fault = f at hf ⊢
    generalize e'.fault = f' at hf ⊢
    cases hf with
    | none => rfl
    | some hf => exact congrArg some hf.eq_relocate
  obtain ⟨-, hglobals, -, hlast⟩ := h
  cases e'
  simp only at houtput hglobals hfault hlast
  subst houtput hglobals hfault hlast
  rfl

/-! ## Relocation commutes with every stage -/

theorem Program.ofTokens_relocate (g : Nat → Nat) {ts : List Token} (hne : ts ≠ []) :
    ofTokens (ts.map (·.relocate g)) =
      ((ofTokens ts).map (·.relocate g)).mapError (·.relocate g) := by
  have hts := Token.allMatch_relocate g ts
  obtain ⟨p, p', hp, hp', h⟩ | ⟨f, f', hf, hf', h⟩ := matches_ofTokens hts hne
  · rw [hp, hp', matches_iff.1 h]
    rfl
  · rw [hf, hf', h.eq_relocate]
    rfl

theorem Setup.run_relocate (g : Nat → Nat) {s : Setup} {ts : List Token}
    (h : Program.ofTokens ts = .ok s.program) (m : Machine) :
    (s.relocate g).run m = Eval.relocate g (s.run m) := by
  obtain ⟨root, n, ns, hroot, hns⟩ := Program.exists_first h
  have hs : Setup.Matches (.along g) s (s.relocate g) := ⟨Program.matches_iff.2 rfl, rfl⟩
  have hrun := matches_run hs rfl hroot hns m
  generalize s.run m = r at hrun ⊢
  generalize (s.relocate g).run m = r' at hrun ⊢
  cases hrun with
  | ok ha hm => rw [← ha, hm.eq_relocate]; rfl
  | error hh hm => rw [hh.eq_relocate, hm.eq_relocate]; rfl

theorem Execution.ofTokens_relocate (g : Nat → Nat) {ts : List Token} (hne : ts ≠ [])
    (limit : Nat) : ofTokens (ts.map (·.relocate g)) limit = (ofTokens ts limit).relocate g :=
  (matches_ofTokens (Token.allMatch_relocate g ts) hne limit).eq_relocate

/-- The tokens of these kinds, each with its number for its offset. -/
def Token.numbered (ks : List Token.Kind) : List Token := ks.mapIdx fun i k => ⟨k, i⟩

/-- The offset of the token of this number. -/
def Token.offsetAt (ts : List Token) (i : Nat) : Nat := (ts[i]?.map (·.offset)).getD 0

theorem Token.relocate_numbered (ts : List Token) :
    (numbered (ts.map (·.kind))).map (·.relocate (offsetAt ts)) = ts := by
  refine List.ext_getElem? fun i => ?_
  simp only [numbered, List.getElem?_map, List.getElem?_mapIdx, Option.map_map]
  cases h : ts[i]? with
  | none => rfl
  | some t => simp [relocate, offsetAt, h]

/-- A source text is executed as its numbered tokens are, with the offsets of its own tokens. -/
theorem execute_eq_relocate {source : String} {ts : List Token} (h : Token.scan source = .ok ts)
    (limit : Nat) : execute source limit =
      (Execution.ofTokens (Token.numbered (ts.map (·.kind))) limit).relocate
        (Token.offsetAt ts) := by
  have hts := Token.relocate_numbered ts
  have hne : Token.numbered (ts.map (·.kind)) ≠ [] := by
    intro hnil
    rw [hnil] at hts
    exact Token.ne_nil_of_scan h hts.symm
  rw [← Execution.ofTokens_relocate _ hne, hts, execute_of_scan h]

/-- Offsets are carried along and never looked at. The program of relocated tokens is the relocated
program, or the relocated fault; the run of a relocated program is the relocated run; and texts
with tokens of the same kinds are executed alike, up to the offsets of their tokens. -/
theorem offsets_only_carried :
    (∀ (g : Nat → Nat) (ts : List Token), ts ≠ [] →
      Program.ofTokens (ts.map (·.relocate g)) =
        ((Program.ofTokens ts).map (·.relocate g)).mapError (·.relocate g)) ∧
    (∀ (g : Nat → Nat) (s : Setup) (ts : List Token), Program.ofTokens ts = .ok s.program →
      ∀ m : Machine, (s.relocate g).run m = Eval.relocate g (s.run m)) ∧
    ∀ (source source' : String) (ts ts' : List Token), Token.scan source = .ok ts →
      Token.scan source' = .ok ts' → ts'.map (·.kind) = ts.map (·.kind) → ∀ limit : Nat,
      let e := Execution.ofTokens (Token.numbered (ts.map (·.kind))) limit
      execute source limit = e.relocate (Token.offsetAt ts) ∧
        execute source' limit = e.relocate (Token.offsetAt ts') := by
  refine ⟨fun g ts hne => Program.ofTokens_relocate g hne,
    fun g s ts h m => Setup.run_relocate g h m, ?_⟩
  intro source source' ts ts' h h' hkinds limit
  refine ⟨execute_eq_relocate h limit, ?_⟩
  rw [← hkinds]
  exact execute_eq_relocate h' limit

/-- A text, moved by seven bytes and written with a comment in it. -/
theorem offsets_only_carried_spaced :
    let ts : List Token := [⟨.sign .openBrace, 0⟩, ⟨.keyword .print, 0⟩, ⟨.keyword .true, 6⟩,
      ⟨.sign .closeBrace, 10⟩, ⟨.finish, 10⟩]
    let ts' : List Token := [⟨.sign .openBrace, 0⟩, ⟨.keyword .print, 1⟩, ⟨.keyword .true, 9⟩,
      ⟨.sign .closeBrace, 13⟩, ⟨.finish, 13⟩]
    let s : Setup := { program := ⟨#[⟨0, none, .fresh, [.print (.bool true 6) 0], 0⟩], 0⟩ }
    let e := Execution.ofTokens (Token.numbered (ts.map (·.kind))) 5
    (ts ≠ [] ∧ Program.ofTokens (ts.map (·.relocate (· + 7))) =
      ((Program.ofTokens ts).map (·.relocate (· + 7))).mapError (·.relocate (· + 7))) ∧
    (Program.ofTokens ts = .ok s.program ∧
      (s.relocate (· + 7)).run {} = Eval.relocate (· + 7) (s.run {})) ∧
    Token.scan "print true" = .ok ts ∧ Token.scan " print #\ntrue" = .ok ts' ∧
      ts'.map (·.kind) = ts.map (·.kind) ∧
      execute "print true" 5 = e.relocate (Token.offsetAt ts) ∧
      execute " print #\ntrue" 5 = e.relocate (Token.offsetAt ts') := by
  intro ts ts' s e
  have hne : ts ≠ [] := List.cons_ne_nil _ _
  have hprogram : Program.ofTokens ts = .ok s.program := rfl
  have hscan : Token.scan "print true" = .ok ts := by cbv
  have hscan' : Token.scan " print #\ntrue" = .ok ts' := by cbv
  have hkinds : ts'.map (·.kind) = ts.map (·.kind) := rfl
  obtain ⟨hparse, hrun, htext⟩ := offsets_only_carried
  exact ⟨⟨hne, hparse _ ts hne⟩, ⟨hprogram, hrun _ s ts hprogram {}⟩, hscan, hscan', hkinds,
    htext _ _ ts ts' hscan hscan' hkinds 5⟩

end ScopeScript
