import ScopeScript.Tree.Basic
import ScopeScript.Token.Printer

/-!
# Reading trees from tokens

A recursive descent over the tokens in front of the first `finish`. A parser is a state monad over
the tokens still to be read; a failure names what was expected and leaves the state at the token
it stopped at. Binary operators are read by level, loosest first:

  `or` < `and` < `not` < comparisons < `+ -` < `* / // %` < `^` < sign < call

All functions recurse on fuel. A token is passed after at most twelve steps, so the fuel of
`Tree.parse` is never used up.
-/

namespace ScopeScript.Tree

open Token (Kind)

inductive Expected where
  | openBrace | closeBrace | semicolon | expression | identifier | parameterName
  | closeArguments | closeParen | openParameters | closeParameters
  | afterPub | assignment | assignable | finish
  deriving DecidableEq, Repr

def Expected.text : Expected → String
  | .openBrace => "'\x7b'"
  | .closeBrace => "'\x7d'"
  | .semicolon => "';'"
  | .expression => "expression"
  | .identifier => "identifier"
  | .parameterName => "parameter name"
  | .closeArguments => "')' after arguments"
  | .closeParen => "')'"
  | .openParameters => "'(' before parameters"
  | .closeParameters => "')' after parameters"
  | .afterPub => "'let' or 'fn' after 'pub'"
  | .assignment => "'=' or a compound assignment"
  | .assignable => "assignable variable"
  | .finish => "end of file"

abbrev Parse := EStateM Expected (List Token)

/-- The levels of expressions, loosest first. -/
inductive Level where
  | or | and | not | comparison | sum | product | power | sign | call
  deriving DecidableEq, Repr

namespace Level

def tighter : Level → Level
  | .or => .and
  | .and => .not
  | .not => .comparison
  | .comparison => .sum
  | .sum => .product
  | .product => .power
  | .power => .sign
  | .sign => .call
  | .call => .call

def operator? : Level → Kind → Option BinaryOp
  | .or, .keyword .or => some .or
  | .and, .keyword .and => some .and
  | .comparison, .sign .equalEqual => some .eq
  | .comparison, .sign .bangEqual => some .ne
  | .comparison, .sign .less => some .lt
  | .comparison, .sign .lessEqual => some .le
  | .comparison, .sign .greater => some .gt
  | .comparison, .sign .greaterEqual => some .ge
  | .sum, .sign .plus => some .add
  | .sum, .sign .minus => some .sub
  | .product, .sign .star => some .mul
  | .product, .sign .slash => some .div
  | .product, .sign .slashSlash => some .floorDiv
  | .product, .sign .percent => some .mod
  | .power, .sign .caret => some .pow
  | _, _ => none

def prefixOp? : Level → Kind → Option UnaryOp
  | .not, .keyword .not => some .not
  | .not, .sign .bang => some .not
  | .sign, .sign .plus => some .pos
  | .sign, .sign .minus => some .neg
  | _, _ => none

end Level

def compound? : Kind → Option BinaryOp
  | .sign .plus => some .add
  | .sign .minus => some .sub
  | .sign .star => some .mul
  | .sign .slash => some .div
  | .sign .slashSlash => some .floorDiv
  | .sign .percent => some .mod
  | .sign .caret => some .pow
  | _ => none

namespace Parse

def startsWith (g : Sign) : List Token → Bool
  | ⟨.sign g', _⟩ :: _ => g' = g
  | _ => false

def startsWithName : List Token → Bool
  | ⟨.name _, _⟩ :: _ => true
  | _ => false

/-- The assignment sign at the front: `=`, or a compound operator followed by `=`. -/
def assignment? : List Token → Option (BinaryOp × List Token)
  | ⟨.sign .equal, _⟩ :: rest => some (.assign, rest)
  | ⟨kind, _⟩ :: ⟨.sign .equal, _⟩ :: rest => (compound? kind).map (·, rest)
  | _ => none

/-- The operator at the front. One that can be part of a compound assignment is left alone when
`=` follows. -/
def operator? (level : Level) : List Token → Option (BinaryOp × Nat × List Token)
  | ⟨kind, offset⟩ :: rest =>
    if (compound? kind).isSome && startsWith .equal rest then none
    else (level.operator? kind).map (·, offset, rest)
  | [] => none

/-- The prefix operator at the front. -/
def prefixOp? (level : Level) : List Token → Option (UnaryOp × Nat × List Token)
  | ⟨kind, offset⟩ :: rest => (level.prefixOp? kind).map (·, offset, rest)
  | [] => none

/-- Fails if the tokens ahead are such. -/
def refuse (p : List Token → Bool) (e : Expected) : Parse Unit := do
  if p (← get) then throw e else return ()

def expect (g : Sign) (e : Expected) : Parse Nat := do
  match ← get with
  | ⟨.sign g', offset⟩ :: rest => if g' = g then set rest; return offset else throw e
  | _ => throw e

def name (e : Expected) : Parse (String × Nat) := do
  match ← get with
  | ⟨.name s, offset⟩ :: rest => set rest; return (s, offset)
  | _ => throw e

def assignment : Parse BinaryOp := do
  match assignment? (← get) with
  | some (op, rest) => set rest; return op
  | none => throw .assignment

def moreParameters : Nat → List String → Parse (List String)
  | 0, _ => throw .parameterName
  | fuel + 1, read => do
    match ← get with
    | ⟨.sign .comma, _⟩ :: rest => do
      set rest
      let (s, _) ← name .parameterName
      moreParameters fuel (s :: read)
    | _ => do
      let _ ← expect .closeParen .closeParameters
      return read.reverse

def parameters : Parse (List String) := do
  let _ ← expect .openParen .openParameters
  let rest ← get
  if startsWith .closeParen rest then
    let _ ← expect .closeParen .closeParameters
    return []
  else
    let (s, _) ← name .parameterName
    moreParameters (rest.length + 1) [s]

/-- What `let name op value` binds: a compound sign applies to the name's old value. -/
def boundValue (name : String) (nameOffset : Nat) (op : BinaryOp) (value : Expr) : Expr :=
  match op with
  | .assign => value
  | op => .binary op (.var name nameOffset) value nameOffset

mutual

def expression : Nat → Level → Parse Expr
  | 0, _ => throw .expression
  | fuel + 1, .call => do
    let callee ← primary fuel
    calls fuel callee
  | fuel + 1, level => do
    match prefixOp? level (← get) with
    | some (op, offset, rest) => do
      set rest
      let operand ← expression fuel level
      return .unary op operand offset
    | none => do
      let left ← expression fuel level.tighter
      chain fuel level left

/-- Takes further operands of a level, joining to the left. -/
def chain : Nat → Level → Expr → Parse Expr
  | 0, _, _ => throw .expression
  | fuel + 1, level, left => do
    match operator? level (← get) with
    | some (op, offset, rest) => do
      set rest
      let right ← expression fuel level.tighter
      chain fuel level (.binary op left right offset)
    | none => return left

/-- Takes argument lists, each a call of what stands before it. -/
def calls : Nat → Expr → Parse Expr
  | 0, _ => throw .expression
  | fuel + 1, callee => do
    match ← get with
    | ⟨.sign .openParen, offset⟩ :: rest => do
      set rest
      if startsWith .closeParen rest then
        let _ ← expect .closeParen .closeArguments
        calls fuel (.call callee [] offset)
      else
        let first ← expression fuel .or
        let args ← moreArguments fuel [first]
        calls fuel (.call callee args offset)
    | _ => return callee

def moreArguments : Nat → List Expr → Parse (List Expr)
  | 0, _ => throw .expression
  | fuel + 1, read => do
    match ← get with
    | ⟨.sign .comma, _⟩ :: rest => do
      set rest
      let arg ← expression fuel .or
      moreArguments fuel (arg :: read)
    | _ => do
      let _ ← expect .closeParen .closeArguments
      return read.reverse

def primary : Nat → Parse Expr
  | 0 => throw .expression
  | fuel + 1 => do
    match ← get with
    | ⟨.number x, offset⟩ :: rest => set rest; return .number x offset
    | ⟨.text s, offset⟩ :: rest => set rest; return .text s offset
    | ⟨.keyword .true, offset⟩ :: rest => set rest; return .bool true offset
    | ⟨.keyword .false, offset⟩ :: rest => set rest; return .bool false offset
    | ⟨.name s, offset⟩ :: rest => set rest; return .var s offset
    | ⟨.sign .openParen, _⟩ :: rest => do
      set rest
      let e ← expression fuel .or
      let _ ← expect .closeParen .closeParen
      return e
    | ⟨.keyword .fn, offset⟩ :: rest => do
      set rest
      function fuel offset
    | ⟨.sign .openBrace, offset⟩ :: _ => do
      let body ← block fuel true
      return .scope body offset
    | _ => throw .expression

def function : Nat → Nat → Parse Expr
  | 0, _ => throw .expression
  | fuel + 1, offset => do
    let params ← parameters
    let body ← block fuel true
    return .function params body offset

/-- Takes a block. The last statement of a `valued` block is its value, unless a semicolon
follows it. -/
def block : Nat → Bool → Parse Block
  | 0, _ => throw .openBrace
  | fuel + 1, valued => do
    let offset ← expect .openBrace .openBrace
    let first ← statement fuel
    let (read, terminated) ← moreStatements fuel [first]
    refuse startsWithName .semicolon
    let _ ← expect .closeBrace .closeBrace
    return .mk (if valued && !terminated then promoteHead read else read).reverse offset

/-- Takes the statements after the first one; also tells whether a semicolon ends the last one. -/
def moreStatements : Nat → List Stmt → Parse (List Stmt × Bool)
  | 0, _ => throw .expression
  | fuel + 1, read => do
    match ← get with
    | ⟨.sign .semicolon, _⟩ :: rest => do
      set rest
      if startsWith .closeBrace rest then return (read, true)
      else
        let s ← statement fuel
        moreStatements fuel (s :: read)
    | _ => return (read, false)

/-- Takes a statement. In front of a closing brace there is an empty one. -/
def statement : Nat → Parse Stmt
  | 0 => throw .expression
  | fuel + 1 => do
    match ← get with
    | ⟨.sign .openBrace, offset⟩ :: _ => do
      let body ← block fuel false
      return .block body offset
    | ⟨.keyword .let, offset⟩ :: rest => do
      set rest
      binding fuel false offset
    | ⟨.keyword .pub, offset⟩ :: ⟨.keyword .let, _⟩ :: rest => do
      set rest
      binding fuel true offset
    | ⟨.keyword .pub, offset⟩ :: ⟨.keyword .fn, _⟩ :: rest => do
      set rest
      namedFunction fuel true offset
    | ⟨.keyword .pub, _⟩ :: rest => do
      set rest
      throw .afterPub
    | ⟨.keyword .fn, offset⟩ :: ⟨.name s, o⟩ :: rest => do
      set (⟨.name s, o⟩ :: rest : List Token)
      namedFunction fuel false offset
    | ⟨.keyword .if, offset⟩ :: rest => do
      set rest
      let condition ← expression fuel .or
      let body ← block fuel false
      return .branch condition body offset
    | ⟨.keyword .return, offset⟩ :: rest => do
      set rest
      if startsWith .semicolon rest || startsWith .closeBrace rest then
        return .result (.nil offset) offset
      else
        let value ← expression fuel .or
        return .result value offset
    | ⟨.keyword .print, offset⟩ :: rest => do
      set rest
      let value ← expression fuel .or
      return .print value offset
    | ⟨.sign .closeBrace, offset⟩ :: _ => return .empty offset
    | tokens => do
      match tokens with
      | ⟨.name s, offset⟩ :: rest =>
        match assignment? rest with
        | some (op, rest) => do
          set rest
          let value ← expression fuel .or
          return .set s op value offset
        | none => bare fuel
      | _ => bare fuel

/-- Takes an expression as a statement; an assignment sign must not follow it. -/
def bare : Nat → Parse Stmt
  | 0 => throw .expression
  | fuel + 1 => do
    let e ← expression fuel .or
    refuse (startsWith .equal) .assignable
    return .eval e

def binding : Nat → Bool → Nat → Parse Stmt
  | 0, _, _ => throw .expression
  | fuel + 1, isPublic, offset => do
    let (s, nameOffset) ← name .identifier
    let op ← assignment
    let value ← expression fuel .or
    return .bind s (boundValue s nameOffset op value) isPublic offset

def namedFunction : Nat → Bool → Nat → Parse Stmt
  | 0, _, _ => throw .expression
  | fuel + 1, isPublic, offset => do
    let (s, _) ← name .identifier
    let value ← function fuel offset
    return .bind s value isPublic offset

end

def whole (fuel : Nat) : Parse Block := do
  let root ← block fuel true
  refuse (!·.isEmpty) .finish
  return root

end Parse

/-- The tokens in front of the first `finish`. -/
def body (tokens : List Token) : List Token := tokens.takeWhile (·.kind != .finish)

/-- The offset at which the tokens end: that of the first `finish`, else that of the last token. -/
def endOffset (tokens : List Token) : Nat :=
  match tokens.find? (·.kind == .finish) with
  | some t => t.offset
  | none => (tokens.getLast?.map (·.offset)).getD 0

structure ParseFault where
  expected : Expected
  found : Token
  deriving DecidableEq

namespace ParseFault

def offset (f : ParseFault) : Nat := f.found.offset

def message (f : ParseFault) : String :=
  "Expected " ++ f.expected.text ++ ", found " ++ f.found.kind.describe

end ParseFault

/-- Fuel that suffices for these tokens. -/
def fuelFor (tokens : List Token) : Nat := 12 * tokens.length + 12

def parse (tokens : List Token) : Except ParseFault Block :=
  match Parse.whole (fuelFor tokens) (body tokens) with
  | .ok root _ => .ok root
  | .error e [] => .error ⟨e, ⟨.finish, endOffset tokens⟩⟩
  | .error e (t :: _) => .error ⟨e, t⟩

end ScopeScript.Tree
