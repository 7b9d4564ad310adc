import ScopeScript.Proofs.Reader.Agreement
import ScopeScript.Proofs.Reader.Progress

/-!
# Position and scopes throughout a parse

`Call` lists the functions of the parser. From every valid cursor each of them ends, with fuel for
the tokens that are left, and takes a token if it returns, except where it has nothing to take
(`Call.Idle`). For whole token lists `parse_bookkeeping` puts this together with what holds at every
point of a parse and with the result.
-/

namespace ScopeScript.Reader

open ScopeScript.Tree (Level)
open Token (Kind)
open Cursor

inductive Call where
  | program
  | scope (capture : Capture) (valued : Bool)
  | statementList (valued : Bool)
  | statement
  | assignment
  | binding (isPublic : Bool) (offset : Nat)
  | reassignment (offset : Nat)
  | namedFunction (isPublic : Bool) (offset : Nat)
  | branch (offset : Nat)
  | leave (offset : Nat)
  | expression (ℓ : Level)
  | arguments
  | primary
  | function (offset : Nat)
  | parameters

namespace Call

def Result : Call → Type
  | .program | .scope _ _ => ScopeId
  | .statementList _ | .arguments => List Node
  | .assignment => BinaryOp
  | .parameters => List String
  | _ => Node

def script (n : Nat) : (f : Call) → Script f.Result
  | .program => Reader.program n
  | .scope capture valued => block n capture valued
  | .statementList valued => Reader.statementList (Reader.statement n) (moreStatements n) valued
  | .statement => Reader.statement n
  | .assignment => Reader.assignment
  | .binding isPublic o => Reader.binding n isPublic o
  | .reassignment o => Reader.reassignment (Reader.expression n .or) o
  | .namedFunction isPublic o => Reader.namedFunction n isPublic o
  | .branch o => Reader.branch (Reader.expression n .or) (block n .shared false) o
  | .leave o => Reader.leave (Reader.expression n .or) o
  | .expression ℓ => Reader.expression n ℓ
  | .arguments => Reader.arguments (Reader.expression n .or) (moreArguments n)
  | .primary => Reader.primary n
  | .function o => Reader.function n o
  | .parameters => Reader.parameters n

/-- The kinds at which a function has nothing to take: a statement or a list of statements at the
end of a body, and what follows `return` at the end of a statement. -/
def Idle : Call → Kind → Prop
  | .statement, k | .statementList _, k => endsBody k
  | .leave _, k => endsReturn k
  | _, _ => False

theorem meets (f : Call) (n : Nat) (c : Cursor) :
    Meets (12 * c.left + 12 ≤ n) (f.script n) c fun _ => Moves f.Idle c := by
  have ih := careful n
  have hbrace := c.brace_le
  -- Each part has less left to read than the function it is a part of.
  have hvalue : ∀ {c'}, Onward c c' →
      Meets (12 * c.left + 12 ≤ n) (Reader.expression n .or) c' fun _ => Past c' := by
    intro c' h
    have hle := h.left_le
    have hbrace := c'.brace_le
    exact (ih.expression .or c').imp (fun hE => by simp only [Grammar.rank]; omega) id
  cases f with
  | program => exact (meets_program n c).imp (fun hE => by omega) fun h => h.moves _
  | scope => exact (ih.block _ _ c).imp (fun hE => by omega) fun h => h.moves _
  | statementList valued =>
    refine meets_statementList valued ((ih.statement c).imp id id) fun s {c'} h => ?_
    have hle := h.left_le
    exact (ih.moreStatements _ c').imp (fun hE => by omega) id
  | statement => exact ih.statement c
  | assignment => exact Meets.assignment_past.imp id fun h => h.moves _
  | binding => exact (ih.binding _ _ c).imp (fun hE => by omega) fun h => h.moves _
  | reassignment => exact (meets_reassignment fun h => hvalue h.toOnward).imp id fun h => h.moves _
  | namedFunction => exact (ih.namedFunction _ _ c).imp (fun hE => by omega) fun h => h.moves _
  | branch =>
    refine (meets_branch (hvalue (.refl c)) fun {c'} h => ?_).imp id fun h => h.moves _
    have hlt := h.left_lt
    exact (ih.block _ _ c').imp (fun hE => by omega) id
  | leave => exact meets_leave (hvalue (.refl c))
  | expression ℓ => exact (ih.expression ℓ c).imp (fun hE => by omega) fun h => h.moves _
  | arguments =>
    refine (meets_arguments (hvalue (.refl c)) fun arg {c'} h => ?_).imp id fun h => h.moves _
    have hlt := h.left_lt
    exact (ih.moreArguments _ c').imp (fun hE => by omega) id
  | primary => exact (ih.primary c).imp (fun hE => by omega) fun h => h.moves _
  | function => exact (ih.function _ c).imp (fun hE => by omega) fun h => h.moves _
  | parameters => exact (meets_parameters n c).imp (fun hE => by omega) fun h => h.moves _

end Call

variable {ts : List Token}

theorem meets_parse (ts : List Token) :
    (∀ p ∈ (program (Tree.fuelFor ts)).points (.start ts), p.Fits) ∧ parse ts ≠ .spent := by
  obtain ⟨hpoints, hends⟩ := meets_program (Tree.fuelFor ts) (.start ts) (valid_start ts)
  refine ⟨hpoints, fun hspent => ?_⟩
  rw [parse] at hspent
  rw [hspent] at hends
  refine hends ?_
  have hlength := (Tree.body_prefix ts).length_le
  simp only [left, stop_start, Tree.fuelFor]
  omega

/-- Every parse ends with the program of its tokens or with a miss among them. At each of its points
the position is in front of or at the first `finish` and the open scopes are nested; no token behind
that `finish` is looked at, and only the innermost scope is closed. And every function of the parser
that returns has taken a token, unless it is idle. -/
theorem parse_bookkeeping (ts : List Token) :
    ((∃ root c, parse ts = .ok root c ∧ c.opened = [] ∧
        Program.ofTokens ts = .ok ⟨c.scopes.toArray, root⟩) ∨
      ∃ e t c, parse ts = .failed ⟨.token e, t⟩ c ∧
        Program.ofTokens ts = .error (.parse ⟨e, t⟩)) ∧
    (∀ p ∈ (program (Tree.fuelFor ts)).points (.start ts),
      p.cursor.tokens = (Cursor.start ts).tokens ∧ p.cursor.Valid ∧
      p.cursor.tokens[p.cursor.position]? = some p.cursor.current ∧ p.Fits) ∧
    ∀ (f : Call) (n : Nat) (c : Cursor), c.Valid →
      (12 * c.left + 12 ≤ n → (f.script n).run c ≠ .spent) ∧
      ∀ a c', (f.script n).run c = .ok a c' →
        c'.opened = c.opened ∧ (¬f.Idle c.current.kind → c.position < c'.position) := by
  obtain ⟨hfits, hspent⟩ := meets_parse ts
  refine ⟨parse_eq hspent, fun p hp => ?_, fun f n c hc => ?_⟩
  · have hlater := Script.later_of_mem_points hp
    have hvalid := hlater.valid (valid_start ts)
    exact ⟨hlater.tokens, hvalid, hvalid.getElem?_position, hfits p hp⟩
  · have hends := (f.meets n c hc).2
    refine ⟨fun hn hrun => ?_, fun a c' hrun => ?_⟩
    · rw [hrun] at hends
      exact hends hn
    · rw [hrun] at hends
      exact ⟨hends.1.opened, fun hidle => (hends.2 hidle).position_lt⟩

/-- With a `finish` in the middle: behind `x` the assignment sign is looked up, and then taken. -/
theorem parse_bookkeeping_reassignment :
    ∃ p ∈ (program 96).points (.start [⟨.sign .openBrace, 0⟩, ⟨.name "x", 1⟩, ⟨.sign .equal, 2⟩,
        ⟨.name "y", 3⟩, ⟨.sign .closeBrace, 4⟩, ⟨.finish, 5⟩, ⟨.sign .closeBrace, 6⟩]),
      p.access = .ahead 1 ∧ p.cursor.position + 1 ≤ p.cursor.stop ∧
      ((Call.reassignment 1).script 60).run p.cursor ≠ .spent ∧
      ∃ c', ((Call.reassignment 1).script 60).run p.cursor =
          .ok (.set "x" .assign (.var "y" 3) 1) c' ∧
        p.cursor.position < c'.position := by
  have h := parse_bookkeeping [⟨.sign .openBrace, 0⟩, ⟨.name "x", 1⟩, ⟨.sign .equal, 2⟩,
    ⟨.name "y", 3⟩, ⟨.sign .closeBrace, 4⟩, ⟨.finish, 5⟩, ⟨.sign .closeBrace, 6⟩]
  obtain ⟨-, hvalid, -, hfits⟩ := h.2.1 ⟨.ahead 1, _⟩ (List.mem_of_getElem? (i := 5) rfl)
  obtain ⟨hends, hok⟩ := h.2.2 (.reassignment 1) 60 _ hvalid
  exact ⟨_, List.mem_of_getElem? (i := 5) rfl, rfl, hfits, hends (by decide), _, rfl,
    (hok _ _ rfl).2 id⟩

/-- What follows `return` may be nothing: in `{ return }` no token is taken for it, although the
position is neither that of a statement nor that of a list of statements. -/
theorem leave_takes_nothing :
    ¬∀ (ts : List Token), ∀ p ∈ (program (Tree.fuelFor ts)).points (.start ts),
      ∀ (f : Call) (n : Nat) (a : f.Result) (c' : Cursor), (f.script n).run p.cursor = .ok a c' →
        p.cursor.position < c'.position ∨ p.cursor.current.kind = .sign .closeBrace ∧
          (f = .statement ∨ ∃ valued, f = .statementList valued) := by
  intro h
  have hp := h [⟨.sign .openBrace, 0⟩, ⟨.keyword .return, 0⟩, ⟨.sign .closeBrace, 6⟩] _
    (List.mem_of_getElem? (i := 6) rfl) (.leave 0) 0 _ _ rfl
  rcases hp with hlt | ⟨-, hf | ⟨_, hf⟩⟩
  · exact absurd hlt (by decide)
  · cases hf
  · cases hf

end ScopeScript.Reader
