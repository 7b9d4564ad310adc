import ScopeScript.Reader.Script

/-!
# Reading programs in one pass

The parser as a script: it takes the tokens one by one and puts every scope into the arena when its
brace opens. Its functions are those of `Tree.Parse` with the same fuel, and the parts of them that
are parsed on their own, such as the list of statements between the braces.
-/

namespace ScopeScript

def Node.isExpression : Node → Bool
  | .bind .. | .set .. | .branch .. | .print .. | .result .. | .empty .. => false
  | _ => true

namespace Reader

open Token (Kind)
open ScopeScript.Tree (Expected Level)

def look : Script Token := .peek .done

def lookAhead (n : Nat) : Script (Option Token) := .ahead n .done

def advance : Script Token := .advance .done

def openScope (capture : Capture) (offset : Nat) : Script ScopeId := .openScope capture offset .done

def closeScope (id : ScopeId) (statements : List Node) : Script Unit :=
  .closeScope id statements (.done ())

def isName : Kind → Bool
  | .name _ => true
  | _ => false

def check (k : Kind) : Script Bool := return (← look).kind = k

def checkAhead (n : Nat) (k : Kind) : Script Bool := return (← lookAhead n).any (·.kind = k)

def accept (k : Kind) : Script (Option Token) := do
  if ← check k then return some (← advance) else return none

def expect (k : Kind) (e : Expected) : Script Token := do
  match ← accept k with
  | some t => return t
  | none => .miss e

def name (e : Expected) : Script String := do
  match (← look).kind with
  | .name s => do
    let _ ← advance
    return s
  | _ => .miss e

/-! ## Operators -/

/-- Whether `=` turns the operators of a level into those of a compound assignment. -/
def compounds : Level → Bool
  | .sum | .product | .power => true
  | _ => false

/-- Takes the operator that joins operands of a level, but not that of a compound assignment. -/
def operator? (ℓ : Level) : Script (Option (BinaryOp × Nat)) := do
  match ℓ.operator? (← look).kind with
  | none => return none
  | some op =>
    if compounds ℓ then
      if ← checkAhead 1 (.sign .equal) then return none
      else return some (op, (← advance).offset)
    else return some (op, (← advance).offset)

def prefixOp? (ℓ : Level) : Script (Option (UnaryOp × Nat)) := do
  match ℓ.prefixOp? (← look).kind with
  | none => return none
  | some op => return some (op, (← advance).offset)

/-- Whether an assignment sign follows the name at the position. -/
def isReassignment : Script Bool := do
  if ← checkAhead 1 (.sign .equal) then return true
  else
    match ← lookAhead 1 with
    | some t => if (Tree.compound? t.kind).isSome then checkAhead 2 (.sign .equal) else return false
    | none => return false

def assignment : Script BinaryOp := do
  match ← accept (.sign .equal) with
  | some _ => return .assign
  | none =>
    match Tree.compound? (← look).kind with
    | some op =>
      if ← checkAhead 1 (.sign .equal) then
        let _ ← advance
        let _ ← advance
        return op
      else .miss .assignment
    | none => .miss .assignment

/-! ## Parts that are parsed on their own -/

def moreParameters : Nat → List String → Script (List String)
  | 0, _ => .spent
  | n + 1, read => do
    match ← accept (.sign .comma) with
    | some _ => do
      let s ← name .parameterName
      moreParameters n (s :: read)
    | none => do
      let _ ← expect (.sign .closeParen) .closeParameters
      return read.reverse

/-- Takes a parameter list with its parentheses. -/
def parameters (n : Nat) : Script (List String) := do
  let _ ← expect (.sign .openParen) .openParameters
  if ← check (.sign .closeParen) then
    let _ ← expect (.sign .closeParen) .closeParameters
    return []
  else
    let s ← name .parameterName
    moreParameters n [s]

/-- Takes the arguments of a call, up to the closing parenthesis. -/
def arguments (first : Script Node) (more : List Node → Script (List Node)) :
    Script (List Node) := do
  if ← check (.sign .closeParen) then
    let _ ← expect (.sign .closeParen) .closeArguments
    return []
  else
    let arg ← first
    more [arg]

/-- The value of the last of some statements in reverse order becomes the result of their scope. -/
def promoteHead : List Node → List Node
  | [] => []
  | n :: ns => (if n.isExpression then .result n n.offset else n) :: ns

/-- Takes statements up to the closing brace. `more` takes those after the first one; it also tells
whether a semicolon ends the last one. -/
def statementList (first : Script Node) (more : List Node → Script (List Node × Bool))
    (valued : Bool) : Script (List Node) := do
  let s ← first
  let (read, terminated) ← more [s]
  if isName (← look).kind then .miss .semicolon
  else return (if valued && !terminated then promoteHead read else read).reverse

/-- Takes what follows `if`. -/
def branch (condition : Script Node) (body : Script ScopeId) (offset : Nat) : Script Node := do
  let e ← condition
  let id ← body
  return .branch e id offset

def leave (value : Script Node) (offset : Nat) : Script Node := do
  if ← check (.sign .semicolon) then return .result (.nil offset) offset
  else if ← check (.sign .closeBrace) then return .result (.nil offset) offset
  else
    let e ← value
    return .result e offset

def reassignment (value : Script Node) (offset : Nat) : Script Node := do
  let s ← name .identifier
  let op ← assignment
  let e ← value
  return .set s op e offset

/-- What `let name op value` binds: a compound sign applies to the name's old value. -/
def boundValue (name : String) (nameOffset : Nat) (op : BinaryOp) (value : Node) : Node :=
  match op with
  | .assign => value
  | op => .binary op (.var name nameOffset) value nameOffset

/-! ## The functions that call each other -/

mutual

def expression : Nat → Level → Script Node
  | 0, _ => .spent
  | n + 1, .call => do
    let callee ← primary n
    calls n callee
  | n + 1, ℓ => do
    match ← prefixOp? ℓ with
    | some (op, offset) => do
      let operand ← expression n ℓ
      return .unary op operand offset
    | none => do
      let left ← expression n ℓ.tighter
      chain n ℓ left

/-- Takes further operands of a level, joining to the left. -/
def chain : Nat → Level → Node → Script Node
  | 0, _, _ => .spent
  | n + 1, ℓ, left => do
    match ← operator? ℓ with
    | some (op, offset) => do
      let right ← expression n ℓ.tighter
      chain n ℓ (.binary op left right offset)
    | none => return left

/-- Takes argument lists, each a call of what stands before it. -/
def calls : Nat → Node → Script Node
  | 0, _ => .spent
  | n + 1, callee => do
    match ← accept (.sign .openParen) with
    | some t => do
      let args ← arguments (expression n .or) (moreArguments n)
      calls n (.call callee args t.offset)
    | none => return callee

def moreArguments : Nat → List Node → Script (List Node)
  | 0, _ => .spent
  | n + 1, read => do
    match ← accept (.sign .comma) with
    | some _ => do
      let arg ← expression n .or
      moreArguments n (arg :: read)
    | none => do
      let _ ← expect (.sign .closeParen) .closeArguments
      return read.reverse

def primary : Nat → Script Node
  | 0 => .spent
  | n + 1 => do
    let t ← look
    match t.kind with
    | .number x => do
      let _ ← advance
      return .number x t.offset
    | .text s => do
      let _ ← advance
      return .text s t.offset
    | .keyword .true => do
      let _ ← advance
      return .bool true t.offset
    | .keyword .false => do
      let _ ← advance
      return .bool false t.offset
    | .name s => do
      let _ ← advance
      return .var s t.offset
    | .sign .openParen => do
      let _ ← advance
      let e ← expression n .or
      let _ ← expect (.sign .closeParen) .closeParen
      return e
    | .keyword .fn => do
      let _ ← advance
      function n t.offset
    | .sign .openBrace => do
      let id ← block n .shared true
      return .scope id t.offset
    | _ => .miss .expression

def function : Nat → Nat → Script Node
  | 0, _ => .spent
  | n + 1, offset => do
    let params ← parameters n
    let id ← block n .copied true
    return .function params id offset

/-- Takes a scope, which is open from its opening brace to its closing one. -/
def block : Nat → Capture → Bool → Script ScopeId
  | 0, _, _ => .spent
  | n + 1, capture, valued => do
    let t ← look
    let _ ← expect (.sign .openBrace) .openBrace
    let id ← openScope capture t.offset
    let statements ← statementList (statement n) (moreStatements n) valued
    let _ ← expect (.sign .closeBrace) .closeBrace
    closeScope id statements
    return id

/-- Takes the statements after the first one; also tells whether a semicolon ends the last one. -/
def moreStatements : Nat → List Node → Script (List Node × Bool)
  | 0, _ => .spent
  | n + 1, read => do
    match ← accept (.sign .semicolon) with
    | some _ =>
      if ← check (.sign .closeBrace) then return (read, true)
      else
        let s ← statement n
        moreStatements n (s :: read)
    | none => return (read, false)

/-- Takes a statement. In front of a closing brace there is an empty one. -/
def statement : Nat → Script Node
  | 0 => .spent
  | n + 1 => do
    let t ← look
    match t.kind with
    | .sign .openBrace => do
      let id ← block n .shared false
      return .scope id t.offset
    | .keyword .let => do
      let _ ← advance
      binding n false t.offset
    | .keyword .pub => do
      let _ ← advance
      match ← accept (.keyword .let) with
      | some _ => binding n true t.offset
      | none =>
        match ← accept (.keyword .fn) with
        | some _ => namedFunction n true t.offset
        | none => .miss .afterPub
    | .keyword .fn => do
      if (← lookAhead 1).any (isName ·.kind) then
        let _ ← advance
        namedFunction n false t.offset
      else bare n
    | .keyword .if => do
      let _ ← advance
      branch (expression n .or) (block n .shared false) t.offset
    | .keyword .return => do
      let _ ← advance
      leave (expression n .or) t.offset
    | .keyword .print => do
      let _ ← advance
      let e ← expression n .or
      return .print e t.offset
    | .sign .closeBrace => return .empty t.offset
    | .name _ => do
      if ← isReassignment then reassignment (expression n .or) t.offset else bare n
    | _ => bare n

def bare : Nat → Script Node
  | 0 => .spent
  | n + 1 => do
    let e ← expression n .or
    if ← check (.sign .equal) then .miss .assignable else return e

def binding : Nat → Bool → Nat → Script Node
  | 0, _, _ => .spent
  | n + 1, isPublic, offset => do
    let t ← look
    let s ← name .identifier
    let op ← assignment
    let e ← expression n .or
    return .bind s (boundValue s t.offset op e) isPublic offset

def namedFunction : Nat → Bool → Nat → Script Node
  | 0, _, _ => .spent
  | n + 1, isPublic, offset => do
    let s ← name .identifier
    let value ← function n offset
    return .bind s value isPublic offset

end

theorem expression_call (n : Nat) :
    expression (n + 1) .call = (do let callee ← primary n; calls n callee) := rfl

theorem expression_ne_call {ℓ : Level} (h : ℓ ≠ .call) (n : Nat) :
    expression (n + 1) ℓ = (do
      match ← prefixOp? ℓ with
      | some (op, offset) => do
        let operand ← expression n ℓ
        return .unary op operand offset
      | none => do
        let left ← expression n ℓ.tighter
        chain n ℓ left) := by
  cases ℓ <;> first | rfl | exact absurd rfl h

def program (n : Nat) : Script ScopeId := do
  let root ← block n .fresh true
  if ← check .finish then return root else .miss .finish

def parse (tokens : List Token) : Outcome ScopeId :=
  (program (Tree.fuelFor tokens)).run (.start tokens)

end Reader

end ScopeScript
