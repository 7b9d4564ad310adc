import ScopeScript.Tree.Parser

/-!
# The grammar

A `Derivation` is a derivation tree of a phrase, with one constructor for each production:

    scope      ::= '{' '}' | '{' statement (';' statement)* [';'] '}'
    statement  ::= block | 'let' binding | 'fn' definition | 'pub' ('let' binding | 'fn' definition)
                 | 'if' expr block | 'return' [expr] | 'print' expr | name assignment expr
                 | expr that does not begin with '{'
    binding    ::= name assignment expr
    definition ::= name parameters scope
    assignment ::= '=' | ('+' | '-' | '*' | '/' | '//' | '%' | '^') '='
    expr       ::= prefix expr | tighter (operator tighter)*          at each level but the last
    call       ::= primary ('(' [expr (',' expr)*] ')')*
    primary    ::= number | text | 'true' | 'false' | name | '(' expr ')'
                 | 'fn' parameters scope | scope

`tokens` is the text a derivation derives, `tree` what it means. A program is a valued scope.
Nothing here refers to how a text is read.
-/

namespace ScopeScript.Grammar

open ScopeScript.Tree (Level Expr Stmt Block)
open Token (Kind)

/-- The binary operators, each with the level it joins operands at. -/
def joins? : Kind → Option (Level × BinaryOp)
  | .keyword .or => some (.or, .or)
  | .keyword .and => some (.and, .and)
  | .sign .equalEqual => some (.comparison, .eq)
  | .sign .bangEqual => some (.comparison, .ne)
  | .sign .less => some (.comparison, .lt)
  | .sign .lessEqual => some (.comparison, .le)
  | .sign .greater => some (.comparison, .gt)
  | .sign .greaterEqual => some (.comparison, .ge)
  | .sign .plus => some (.sum, .add)
  | .sign .minus => some (.sum, .sub)
  | .sign .star => some (.product, .mul)
  | .sign .slash => some (.product, .div)
  | .sign .slashSlash => some (.product, .floorDiv)
  | .sign .percent => some (.product, .mod)
  | .sign .caret => some (.power, .pow)
  | _ => none

/-- The unary operators, each with the level it stands in front of. -/
def leads? : Kind → Option (Level × UnaryOp)
  | .keyword .not => some (.not, .not)
  | .sign .bang => some (.not, .not)
  | .sign .plus => some (.sign, .pos)
  | .sign .minus => some (.sign, .neg)
  | _ => none

/-- The operators that `=` turns into a compound assignment. -/
def compounds? : Kind → Option BinaryOp
  | .sign .plus => some .add
  | .sign .minus => some .sub
  | .sign .star => some .mul
  | .sign .slash => some .div
  | .sign .slashSlash => some .floorDiv
  | .sign .percent => some .mod
  | .sign .caret => some .pow
  | _ => none

/-! ## Phrases -/

/-- The classes of phrases. An expression is `braced` if it begins with an opening brace. What
follows the first member of a sequence is a class of its own: `statements`, `operands`, ... -/
inductive Symbol where
  | scope (valued : Bool)
  | statements
  | statement
  | binding
  | definition
  | assignment
  | parameters
  | moreParameters
  | expr (level : Level) (braced : Bool)
  | operands (level : Level)
  | primary (braced : Bool)
  | calls
  | arguments
  | moreArguments

/-- What the phrases of a class mean. Operands and calls apply to the expression in front of them;
`statements` also tells whether a semicolon ends the last one; bindings and definitions wait to be
told whether they are public and where they begin. -/
@[reducible] def Symbol.Meaning : Symbol → Type
  | .scope _ => Block
  | .statements => List Stmt × Bool
  | .statement => Stmt
  | .binding | .definition => Bool → Nat → Stmt
  | .assignment => BinaryOp
  | .parameters | .moreParameters => List String
  | .expr _ _ | .primary _ => Expr
  | .operands _ | .calls => Expr → Expr
  | .arguments | .moreArguments => List Expr

/-- Derivation trees. Each terminal stands with the offset of its token. -/
inductive Derivation : Symbol → Type where
  | unit {valued : Bool} (o c : Nat) : Derivation (.scope valued)
  | scope {valued : Bool} (o : Nat) (first : Derivation .statement)
      (more : Derivation .statements) (c : Nat) : Derivation (.scope valued)
  | done : Derivation .statements
  | terminated (o : Nat) : Derivation .statements
  | next (o : Nat) (s : Derivation .statement) (more : Derivation .statements) :
      Derivation .statements
  | block (body : Derivation (.scope false)) : Derivation .statement
  | bind (o : Nat) (d : Derivation .binding) : Derivation .statement
  | define (o : Nat) (d : Derivation .definition) : Derivation .statement
  | publicBind (o o' : Nat) (d : Derivation .binding) : Derivation .statement
  | publicDefine (o o' : Nat) (d : Derivation .definition) : Derivation .statement
  | branch {b : Bool} (o : Nat) (condition : Derivation (.expr .or b))
      (body : Derivation (.scope false)) : Derivation .statement
  | leave (o : Nat) : Derivation .statement
  | leaveWith {b : Bool} (o : Nat) (value : Derivation (.expr .or b)) : Derivation .statement
  | print {b : Bool} (o : Nat) (value : Derivation (.expr .or b)) : Derivation .statement
  | set {b : Bool} (s : String) (o : Nat) (sign : Derivation .assignment)
      (value : Derivation (.expr .or b)) : Derivation .statement
  | eval (value : Derivation (.expr .or false)) : Derivation .statement
  | binding {b : Bool} (s : String) (o : Nat) (sign : Derivation .assignment)
      (value : Derivation (.expr .or b)) : Derivation .binding
  | definition (s : String) (o : Nat) (params : Derivation .parameters)
      (body : Derivation (.scope true)) : Derivation .definition
  | plain (o : Nat) : Derivation .assignment
  | compound (k : Kind) (op : BinaryOp) (h : compounds? k = some op) (o o' : Nat) :
      Derivation .assignment
  | noParameters (o c : Nat) : Derivation .parameters
  | parameters (o : Nat) (s : String) (n : Nat) (more : Derivation .moreParameters) :
      Derivation .parameters
  | closeParameters (c : Nat) : Derivation .moreParameters
  | parameter (o : Nat) (s : String) (n : Nat) (more : Derivation .moreParameters) :
      Derivation .moreParameters
  | prefixed {ℓ : Level} {b : Bool} (k : Kind) (op : UnaryOp) (h : leads? k = some (ℓ, op))
      (o : Nat) (operand : Derivation (.expr ℓ b)) : Derivation (.expr ℓ false)
  | joined {ℓ : Level} {b : Bool} (h : ℓ ≠ .call) (first : Derivation (.expr ℓ.tighter b))
      (rest : Derivation (.operands ℓ)) : Derivation (.expr ℓ b)
  | called {b : Bool} (callee : Derivation (.primary b)) (rest : Derivation .calls) :
      Derivation (.expr .call b)
  | noOperand {ℓ : Level} : Derivation (.operands ℓ)
  | operand {ℓ : Level} {b : Bool} (k : Kind) (op : BinaryOp) (h : joins? k = some (ℓ, op))
      (o : Nat) (right : Derivation (.expr ℓ.tighter b)) (rest : Derivation (.operands ℓ)) :
      Derivation (.operands ℓ)
  | number (x : Float) (o : Nat) : Derivation (.primary false)
  | text (s : String) (o : Nat) : Derivation (.primary false)
  | yes (o : Nat) : Derivation (.primary false)
  | no (o : Nat) : Derivation (.primary false)
  | name (s : String) (o : Nat) : Derivation (.primary false)
  | parens {b : Bool} (o : Nat) (e : Derivation (.expr .or b)) (c : Nat) :
      Derivation (.primary false)
  | function (o : Nat) (params : Derivation .parameters) (body : Derivation (.scope true)) :
      Derivation (.primary false)
  | braces (body : Derivation (.scope true)) : Derivation (.primary true)
  | noCall : Derivation .calls
  | call (o : Nat) (args : Derivation .arguments) (rest : Derivation .calls) : Derivation .calls
  | noArguments (c : Nat) : Derivation .arguments
  | arguments {b : Bool} (first : Derivation (.expr .or b)) (more : Derivation .moreArguments) :
      Derivation .arguments
  | closeArguments (c : Nat) : Derivation .moreArguments
  | argument {b : Bool} (o : Nat) (e : Derivation (.expr .or b))
      (more : Derivation .moreArguments) : Derivation .moreArguments

def start : Block → Nat
  | .mk _ o => o

/-- An expression or a block in last place becomes the value of its scope. -/
def promoteLast : List Stmt → List Stmt
  | [] => []
  | [s] => [s.promote]
  | s :: ss => s :: promoteLast ss

namespace Derivation

def tokens {s : Symbol} : Derivation s → List Token
  | .unit o c => [⟨.sign .openBrace, o⟩, ⟨.sign .closeBrace, c⟩]
  | .scope o first more c =>
    ⟨.sign .openBrace, o⟩ :: (first.tokens ++ (more.tokens ++ [⟨.sign .closeBrace, c⟩]))
  | .done => []
  | .terminated o => [⟨.sign .semicolon, o⟩]
  | .next o s more => ⟨.sign .semicolon, o⟩ :: (s.tokens ++ more.tokens)
  | .block body => body.tokens
  | .bind o d => ⟨.keyword .let, o⟩ :: d.tokens
  | .define o d => ⟨.keyword .fn, o⟩ :: d.tokens
  | .publicBind o o' d => ⟨.keyword .pub, o⟩ :: ⟨.keyword .let, o'⟩ :: d.tokens
  | .publicDefine o o' d => ⟨.keyword .pub, o⟩ :: ⟨.keyword .fn, o'⟩ :: d.tokens
  | .branch o condition body => ⟨.keyword .if, o⟩ :: (condition.tokens ++ body.tokens)
  | .leave o => [⟨.keyword .return, o⟩]
  | .leaveWith o value => ⟨.keyword .return, o⟩ :: value.tokens
  | .print o value => ⟨.keyword .print, o⟩ :: value.tokens
  | .set s o sign value => ⟨.name s, o⟩ :: (sign.tokens ++ value.tokens)
  | .eval value => value.tokens
  | .binding s o sign value => ⟨.name s, o⟩ :: (sign.tokens ++ value.tokens)
  | .definition s o params body => ⟨.name s, o⟩ :: (params.tokens ++ body.tokens)
  | .plain o => [⟨.sign .equal, o⟩]
  | .compound k _ _ o o' => [⟨k, o⟩, ⟨.sign .equal, o'⟩]
  | .noParameters o c => [⟨.sign .openParen, o⟩, ⟨.sign .closeParen, c⟩]
  | .parameters o s n more => ⟨.sign .openParen, o⟩ :: ⟨.name s, n⟩ :: more.tokens
  | .closeParameters c => [⟨.sign .closeParen, c⟩]
  | .parameter o s n more => ⟨.sign .comma, o⟩ :: ⟨.name s, n⟩ :: more.tokens
  | .prefixed k _ _ o e => ⟨k, o⟩ :: e.tokens
  | .joined _ first rest => first.tokens ++ rest.tokens
  | .called callee rest => callee.tokens ++ rest.tokens
  | .noOperand => []
  | .operand k _ _ o right rest => ⟨k, o⟩ :: (right.tokens ++ rest.tokens)
  | .number x o => [⟨.number x, o⟩]
  | .text s o => [⟨.text s, o⟩]
  | .yes o => [⟨.keyword .true, o⟩]
  | .no o => [⟨.keyword .false, o⟩]
  | .name s o => [⟨.name s, o⟩]
  | .parens o e c => ⟨.sign .openParen, o⟩ :: (e.tokens ++ [⟨.sign .closeParen, c⟩])
  | .function o params body => ⟨.keyword .fn, o⟩ :: (params.tokens ++ body.tokens)
  | .braces body => body.tokens
  | .noCall => []
  | .call o args rest => ⟨.sign .openParen, o⟩ :: (args.tokens ++ rest.tokens)
  | .noArguments c => [⟨.sign .closeParen, c⟩]
  | .arguments first more => first.tokens ++ more.tokens
  | .closeArguments c => [⟨.sign .closeParen, c⟩]
  | .argument o e more => ⟨.sign .comma, o⟩ :: (e.tokens ++ more.tokens)

/-- What is derived. Operators of one level and calls join to the left, parentheses leave no trace,
and the last statement of a valued scope is its value unless a semicolon ends it. -/
def tree {s : Symbol} : Derivation s → s.Meaning
  | .unit o c => .mk [.empty c] o
  | @scope valued o first more _ =>
    .mk (if valued && !more.tree.2 then promoteLast (first.tree :: more.tree.1)
      else first.tree :: more.tree.1) o
  | .done => ([], false)
  | .terminated _ => ([], true)
  | .next _ s more => (s.tree :: more.tree.1, more.tree.2)
  | .block body => .block body.tree (start body.tree)
  | .bind o d => d.tree false o
  | .define o d => d.tree false o
  | .publicBind o _ d => d.tree true o
  | .publicDefine o _ d => d.tree true o
  | .branch o condition body => .branch condition.tree body.tree o
  | .leave o => .result (.nil o) o
  | .leaveWith o value => .result value.tree o
  | .print o value => .print value.tree o
  | .set s o sign value => .set s sign.tree value.tree o
  | .eval value => .eval value.tree
  | .binding s n sign value => fun isPublic o => match sign.tree with
    | .assign => .bind s value.tree isPublic o
    | op => .bind s (.binary op (.var s n) value.tree n) isPublic o
  | .definition s _ params body => fun isPublic o =>
    .bind s (.function params.tree body.tree o) isPublic o
  | .plain _ => .assign
  | .compound _ op _ _ _ => op
  | .noParameters _ _ => []
  | .parameters _ s _ more => s :: more.tree
  | .closeParameters _ => []
  | .parameter _ s _ more => s :: more.tree
  | .prefixed _ op _ o e => .unary op e.tree o
  | .joined _ first rest => rest.tree first.tree
  | .called callee rest => rest.tree callee.tree
  | .noOperand => fun left => left
  | .operand _ op _ o right rest => fun left => rest.tree (.binary op left right.tree o)
  | .number x o => .number x o
  | .text s o => .text s o
  | .yes o => .bool true o
  | .no o => .bool false o
  | .name s o => .var s o
  | .parens _ e _ => e.tree
  | .function o params body => .function params.tree body.tree o
  | .braces body => .scope body.tree (start body.tree)
  | .noCall => fun callee => callee
  | .call o args rest => fun callee => rest.tree (.call callee args.tree o)
  | .noArguments _ => []
  | .arguments first more => first.tree :: more.tree
  | .closeArguments _ => []
  | .argument _ e more => e.tree :: more.tree

end Derivation

end ScopeScript.Grammar
