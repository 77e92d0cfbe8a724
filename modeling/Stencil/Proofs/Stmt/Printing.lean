import Stencil.Lexer.Opening
import Stencil.Proofs.Expr.Printing
import Stencil.Stmt.Walk

/-!
# Printing statements

The written form of a template is a row of pieces: block tags, print tags and raw blocks. Plain text
is put into a raw block, so that nothing in it is taken for a tag. An `else` tag is written only
where statements follow it, and modifiers only where they change something.

`Stmt.Printable` says which statements have a written form. A call tag without a body must not stand
inside of a call block: the `endcall` tag of the block would be taken for its own.
-/

namespace Stencil

namespace Lexeme

/-- The token that opens a block tag. -/
def blockBegin : Lexeme := ⟨.blockBegin, "\x7b%"⟩

/-- The token that closes a block tag. -/
def blockEnd : Lexeme := ⟨.blockEnd, "%\x7d"⟩

end Lexeme

/-- A piece of a written template. -/
inductive Piece where
  /-- A block tag with its word and what stands after it. -/
  | tag (word : String) (arguments : List Lexeme)
  /-- A print tag. -/
  | output (lexemes : List Lexeme)
  | raw (content : String)

namespace Piece

/-- The tokens of a piece. -/
def lexemes : Piece → List Lexeme
  | tag word arguments => .blockBegin :: .word word :: (arguments ++ [.blockEnd])
  | output lexemes => ⟨.variableBegin, "\x7b\x7b"⟩ :: (lexemes ++ [⟨.variableEnd, "\x7d\x7d"⟩])
  | raw content =>
    ⟨.rawBegin, "\x7b% raw %\x7d"⟩ :: ((if content = "" then [] else [⟨.data, content⟩]) ++
      [⟨.rawEnd, "\x7b% endraw %\x7d"⟩])

/-- The tokens of a row of pieces. -/
def row (pieces : List Piece) : List Lexeme :=
  pieces.flatMap lexemes

/-- The text of a piece. -/
def print : Piece → String
  | tag word arguments => "\x7b% " ++ Lexeme.spaced (.word word :: arguments) ++ " %\x7d"
  | output lexemes => "\x7b\x7b " ++ Lexeme.spaced lexemes ++ " \x7d\x7d"
  | raw content => "\x7b% raw %\x7d" ++ content ++ "\x7b% endraw %\x7d"

end Piece

namespace Stmt

/-! ### What stands in tags -/

/-- Names with commas between them. -/
def targetLexemes (targets : List String) : List Lexeme :=
  Expr.separated (targets.map fun target => [.word target])

/-- Words that are written only if a flag is set. -/
def flagLexemes (flag : Bool) (words : List String) : List Lexeme :=
  if flag then words.map .word else []

/-- A context modifier, unless it says what holds without it. -/
def contextLexemes (default withContext : Bool) : List Lexeme :=
  if withContext = default then []
  else [.word (if withContext then "with" else "without"), .word "context"]

def importLexemes (imported : ImportName) : List Lexeme :=
  .word imported.name :: imported.target.elim [] fun target => [.word "as", .word target]

def parameterLexemes (param : Parameter) : List Lexeme :=
  .word param.name :: Expr.optionalLexemes [.symbol "="] param.default?

def signatureLexemes (params : List Parameter) : List Lexeme :=
  .symbol "(" :: (Expr.separated (params.map parameterLexemes) ++ [.symbol ")"])

/-- The signature of a call tag. It may be left out if there are no parameters, and if the call
itself does not begin with a parenthesis, which would be taken for one. -/
def callSignatureLexemes (params : List Parameter) (call : Expr) : List Lexeme :=
  if params.isEmpty ∧ ¬call.lexemes.head?.any (·.kind = .lparen) then []
  else signatureLexemes params

def filterLexemes (filter : FilterCall) : List Lexeme :=
  Expr.dotted filter.name ++ .symbol "(" ::
    (Expr.separated (Expr.itemLexemes filter.args ++ Expr.namedLexemes filter.kwargs) ++
      [.symbol ")"])

/-- An `else` tag, if statements follow it. -/
def elseTag (elseBody : List Stmt) : List Piece :=
  if elseBody.isEmpty then [] else [.tag "else" []]

/-! ### Statements -/

mutual

/-- The pieces of a statement. -/
def pieces : Stmt → List Piece
  | text _ content => [.raw content]
  | output _ expr => [.output expr.lexemes]
  | forLoop _ targets iter filter isRecursive body elseBody =>
    .tag "for" (targetLexemes targets ++ .word "in" ::
        (Level.disjunction.enclose iter.level iter.lexemes ++
          Expr.optionalLexemes [.word "if"] filter ++ flagLexemes isRecursive ["recursive"])) ::
      (bodyPieces body ++ elseTag elseBody ++ bodyPieces elseBody ++ [.tag "endfor" []])
  | choice _ condition body elifs elseBody =>
    .tag "if" condition.lexemes :: (bodyPieces body ++ branchPieces elifs ++ elseTag elseBody ++
      bodyPieces elseBody ++ [.tag "endif" []])
  | assign _ targets (some value) _ =>
    [.tag "set" (targetLexemes targets ++ .symbol "=" :: value.lexemes)]
  | assign _ targets none body =>
    .tag "set" (targetLexemes targets) :: (bodyPieces body ++ [.tag "endset" []])
  | block _ name isScoped isRequired body =>
    .tag "block" (.word name :: (flagLexemes isScoped ["scoped"] ++
      flagLexemes isRequired ["required"])) :: (bodyPieces body ++ [.tag "endblock" []])
  | parent _ template => [.tag "extends" template.lexemes]
  | inclusion _ template withContext ignoreMissing =>
    [.tag "include" (template.lexemes ++ flagLexemes ignoreMissing ["ignore", "missing"] ++
      contextLexemes true withContext)]
  | importAs _ template target withContext =>
    [.tag "import" (template.lexemes ++ [.word "as", .word target] ++
      contextLexemes false withContext)]
  | importNames _ template names withContext =>
    [.tag "from" (template.lexemes ++ .word "import" ::
      (Expr.separated (names.map importLexemes) ++ contextLexemes false withContext))]
  | macro_ _ name params body _ _ =>
    .tag "macro" (.word name :: signatureLexemes params) :: (bodyPieces body ++ [.tag "endmacro" []])
  | bareCall _ call => [.tag "call" (callSignatureLexemes [] call ++ call.lexemes)]
  | callBlock _ call params body =>
    .tag "call" (callSignatureLexemes params call ++ call.lexemes) ::
      (bodyPieces body ++ [.tag "endcall" []])
  | scope _ assignments body =>
    .tag "with" (Expr.separated (Expr.namedLexemes assignments)) ::
      (bodyPieces body ++ [.tag "endwith" []])
  | filtered _ filters body =>
    .tag "filter" ([Lexeme.symbol "|"].intercalate (filters.map filterLexemes)) ::
      (bodyPieces body ++ [.tag "endfilter" []])
  | autoescape _ enabled body =>
    .tag "autoescape" enabled.lexemes :: (bodyPieces body ++ [.tag "endautoescape" []])
  | evaluate _ expr => [.tag "do" expr.lexemes]
  | debug _ => [.tag "debug" []]
  | continue_ _ => [.tag "continue" []]
  | break_ _ => [.tag "break" []]
  | extension .. => []

/-- The pieces of each statement of a body in turn. -/
def bodyPieces : List Stmt → List Piece
  | [] => []
  | stmt :: rest => pieces stmt ++ bodyPieces rest

/-- The pieces of each branch in turn. -/
def branchPieces : List (Branch Stmt) → List Piece
  | [] => []
  | ⟨condition, body⟩ :: rest =>
    .tag "elif" condition.lexemes :: (bodyPieces body ++ branchPieces rest)

end

/-! ### Nesting -/

/-- The levels of nesting that the defaults of parameters take. -/
def parameterNesting (params : List Parameter) : Nat :=
  params.foldr (fun param => max (Expr.optionalNesting param.default?)) 0

/-- The levels of nesting that the arguments of a filter take. -/
def argumentNesting (filter : FilterCall) : Nat :=
  max (Expr.itemNesting filter.args) (Expr.namedNesting filter.kwargs)

/-- The levels of nesting that the arguments of filters take. -/
def filterNesting (filters : List FilterCall) : Nat :=
  filters.foldr (fun filter => max (argumentNesting filter)) 0

mutual

/-- The number of levels of nesting that the written form of a statement takes: one for every tag
that is not a word alone, and one for every expression in it. -/
def nesting : Stmt → Nat
  | text .. | debug .. | continue_ .. | break_ .. | extension .. => 0
  | output _ expr | parent _ expr | inclusion _ expr _ _ | importAs _ expr _ _
  | importNames _ expr _ _ | bareCall _ expr | evaluate _ expr => expr.nesting + 2
  | forLoop _ _ iter filter _ body elseBody =>
    max (iter.nesting + Level.disjunction.enclosure iter.level + 1)
      (max (Expr.optionalNesting filter) (max (bodyNesting body) (bodyNesting elseBody))) + 1
  | choice _ condition body elifs elseBody =>
    max (condition.nesting + 1)
      (max (bodyNesting body) (max (branchNesting elifs) (bodyNesting elseBody))) + 1
  | assign _ _ value body => max (Expr.optionalNesting value) (bodyNesting body) + 1
  | block _ _ _ _ body => bodyNesting body + 1
  | macro_ _ _ params body _ _ => max (parameterNesting params) (bodyNesting body) + 1
  | callBlock _ call params body =>
    max (parameterNesting params) (max (call.nesting + 1) (bodyNesting body)) + 1
  | scope _ assignments body => max (Expr.namedNesting assignments) (bodyNesting body) + 1
  | filtered _ filters body => max (filterNesting filters) (bodyNesting body) + 1
  | autoescape _ enabled body => max (enabled.nesting + 1) (bodyNesting body) + 1

/-- The levels of nesting that a body takes. -/
def bodyNesting : List Stmt → Nat
  | [] => 0
  | stmt :: rest => max (nesting stmt) (bodyNesting rest)

/-- The levels of nesting that branches take. -/
def branchNesting : List (Branch Stmt) → Nat
  | [] => 0
  | ⟨condition, body⟩ :: rest =>
    max (condition.nesting + 1) (max (bodyNesting body) (branchNesting rest))

end

/-! ### Statements that have a written form -/

/-- Whether a text can stand in a raw block: no `endraw` tag begins anywhere in it. -/
def isRawContent (content : String) : Bool :=
  content.toList.tails.all fun tail => (Lexer.wordTag? {} "endraw".toList tail).isNone

/-- Whether a statement is a call tag without a body. -/
def isBareCall : Stmt → Bool
  | bareCall .. => true
  | _ => false

/-- Whether a statement is a call tag without a body, or holds one anywhere. -/
def hasBareCall (stmt : Stmt) : Bool :=
  stmt.flatten.any isBareCall

theorem hasBareCall_eq (stmt : Stmt) :
    stmt.hasBareCall = (stmt.isBareCall || stmt.bodies.any fun body => body.any hasBareCall) := by
  rw [hasBareCall, flatten_eq, List.any_cons, List.any_flatMap]
  simp only [List.any_flatMap]
  rfl

/-- Parameters that have a written form. -/
structure ParametersPrintable (params : List Parameter) : Prop where
  distinct : (params.map (·.name)).Nodup
  free : ∀ param ∈ params, Expr.isFreeName param.name = true
  defaults : ∀ param ∈ params, ∀ expr ∈ param.default?, expr.Printable

/-- Filters that have a written form. -/
structure FilterPrintable (filter : FilterCall) : Prop where
  isName : Expr.isDottedName filter.name = true
  each : ∀ arg ∈ filter.args, arg.Printable
  free : ∀ kwarg ∈ filter.kwargs, Expr.isFreeName kwarg.name = true
  eachNamed : ∀ kwarg ∈ filter.kwargs, kwarg.value.Printable

/-- Imported names that have a written form; they must not begin with an underscore. -/
structure ImportPrintable (imported : ImportName) : Prop where
  free : Expr.isFreeName imported.name = true
  isPublic : imported.name.toList.head? ≠ some '_'
  freeTarget : ∀ target ∈ imported.target, Expr.isFreeName target = true

/-- Statements that have a written form. -/
inductive Printable : Stmt → Prop where
  | text (origin : Origin) {content : String} (isRaw : isRawContent content = true) :
      Printable (text origin content)
  | output (origin : Origin) {expr : Expr} (printed : expr.Printable) :
      Printable (output origin expr)
  | forLoop (origin : Origin) {targets : List String} {iter : Expr} {filter : Option Expr}
      (isRecursive : Bool) {body elseBody : List Stmt} (nonempty : targets ≠ [])
      (free : ∀ target ∈ targets, Expr.isFreeName target = true) (iterated : iter.Printable)
      (guarded : ∀ expr ∈ filter, expr.Printable) (each : ∀ stmt ∈ body, Printable stmt)
      (eachElse : ∀ stmt ∈ elseBody, Printable stmt) :
      Printable (forLoop origin targets iter filter isRecursive body elseBody)
  | choice (origin : Origin) {condition : Expr} {body elseBody : List Stmt}
      {elifs : List (Branch Stmt)} (first : condition.Printable)
      (each : ∀ stmt ∈ body, Printable stmt)
      (conditions : ∀ branch ∈ elifs, branch.condition.Printable)
      (bodies : ∀ branch ∈ elifs, ∀ stmt ∈ branch.body, Printable stmt)
      (eachElse : ∀ stmt ∈ elseBody, Printable stmt) :
      Printable (choice origin condition body elifs elseBody)
  | assign (origin : Origin) {targets : List String} {value : Expr} (nonempty : targets ≠ [])
      (free : ∀ target ∈ targets, Expr.isFreeName target = true) (assigned : value.Printable) :
      Printable (assign origin targets (some value) [])
  | capture (origin : Origin) {target : String} {body : List Stmt}
      (free : Expr.isFreeName target = true) (each : ∀ stmt ∈ body, Printable stmt) :
      Printable (assign origin [target] none body)
  | block (origin : Origin) {name : String} (isScoped isRequired : Bool) {body : List Stmt}
      (free : Expr.isFreeName name = true) (each : ∀ stmt ∈ body, Printable stmt) :
      Printable (block origin name isScoped isRequired body)
  | parent (origin : Origin) {template : Expr} (extended : template.Printable) :
      Printable (parent origin template)
  | inclusion (origin : Origin) {template : Expr} (withContext ignoreMissing : Bool)
      (included : template.Printable) :
      Printable (inclusion origin template withContext ignoreMissing)
  | importAs (origin : Origin) {template : Expr} {target : String} (withContext : Bool)
      (imported : template.Printable) (free : Expr.isFreeName target = true) :
      Printable (importAs origin template target withContext)
  | importNames (origin : Origin) {template : Expr} {names : List ImportName}
      (withContext : Bool) (imported : template.Printable) (nonempty : names ≠ [])
      (eachName : ∀ name ∈ names, ImportPrintable name) :
      Printable (importNames origin template names withContext)
  | macro_ (origin : Origin) {name : String} {params : List Parameter} {body : List Stmt}
      {catchVarargs catchKwargs : Bool} (free : Expr.isFreeName name = true)
      (parameters : ParametersPrintable params) (each : ∀ stmt ∈ body, Printable stmt)
      (varargs : catchVarargs = bodyReads body "varargs")
      (kwargs : catchKwargs = bodyReads body "kwargs") :
      Printable (macro_ origin name params body catchVarargs catchKwargs)
  | bareCall (origin : Origin) {call : Expr} (called : call.Printable)
      (isCall : call.isCall = true) : Printable (bareCall origin call)
  | callBlock (origin : Origin) {call : Expr} {params : List Parameter} {body : List Stmt}
      (called : call.Printable) (isCall : call.isCall = true)
      (parameters : ParametersPrintable params) (each : ∀ stmt ∈ body, Printable stmt)
      (noBareCall : ∀ stmt ∈ body, stmt.hasBareCall = false) :
      Printable (callBlock origin call params body)
  | scope (origin : Origin) {assignments : List (Named Expr)} {body : List Stmt}
      (free : ∀ assignment ∈ assignments, Expr.isFreeName assignment.name = true)
      (assigned : ∀ assignment ∈ assignments, assignment.value.Printable)
      (each : ∀ stmt ∈ body, Printable stmt) : Printable (scope origin assignments body)
  | filtered (origin : Origin) {filters : List FilterCall} {body : List Stmt}
      (nonempty : filters ≠ []) (eachFilter : ∀ filter ∈ filters, FilterPrintable filter)
      (each : ∀ stmt ∈ body, Printable stmt) : Printable (filtered origin filters body)
  | autoescape (origin : Origin) {enabled : Expr} {body : List Stmt} (switch : enabled.Printable)
      (each : ∀ stmt ∈ body, Printable stmt) : Printable (autoescape origin enabled body)
  | evaluate (origin : Origin) {expr : Expr} (evaluated : expr.Printable) :
      Printable (evaluate origin expr)
  | debug (origin : Origin) : Printable (debug origin)
  | continue_ (origin : Origin) : Printable (continue_ origin)
  | break_ (origin : Origin) : Printable (break_ origin)

/-! ### Statements without their origins -/

def forgetParameter (param : Parameter) : Parameter :=
  ⟨param.name, Expr.forgetOptional param.default?⟩

def forgetFilter (filter : FilterCall) : FilterCall :=
  ⟨filter.name, Expr.forgetItems filter.args, Expr.forgetNamed filter.kwargs⟩

mutual

/-- A statement without the lines and the template name that its nodes carry. -/
def forgetOrigins : Stmt → Stmt
  | text _ content => text ⟨0, none⟩ content
  | output _ expr => output ⟨0, none⟩ expr.forgetOrigins
  | forLoop _ targets iter filter isRecursive body elseBody =>
    forLoop ⟨0, none⟩ targets iter.forgetOrigins (Expr.forgetOptional filter) isRecursive
      (forgetBody body) (forgetBody elseBody)
  | choice _ condition body elifs elseBody =>
    choice ⟨0, none⟩ condition.forgetOrigins (forgetBody body) (forgetBranches elifs)
      (forgetBody elseBody)
  | assign _ targets value body =>
    assign ⟨0, none⟩ targets (Expr.forgetOptional value) (forgetBody body)
  | block _ name isScoped isRequired body =>
    block ⟨0, none⟩ name isScoped isRequired (forgetBody body)
  | parent _ template => parent ⟨0, none⟩ template.forgetOrigins
  | inclusion _ template withContext ignoreMissing =>
    inclusion ⟨0, none⟩ template.forgetOrigins withContext ignoreMissing
  | importAs _ template target withContext =>
    importAs ⟨0, none⟩ template.forgetOrigins target withContext
  | importNames _ template names withContext =>
    importNames ⟨0, none⟩ template.forgetOrigins names withContext
  | macro_ _ name params body catchVarargs catchKwargs =>
    macro_ ⟨0, none⟩ name (params.map forgetParameter) (forgetBody body) catchVarargs catchKwargs
  | bareCall _ call => bareCall ⟨0, none⟩ call.forgetOrigins
  | callBlock _ call params body =>
    callBlock ⟨0, none⟩ call.forgetOrigins (params.map forgetParameter) (forgetBody body)
  | scope _ assignments body =>
    scope ⟨0, none⟩ (Expr.forgetNamed assignments) (forgetBody body)
  | filtered _ filters body => filtered ⟨0, none⟩ (filters.map forgetFilter) (forgetBody body)
  | autoescape _ enabled body => autoescape ⟨0, none⟩ enabled.forgetOrigins (forgetBody body)
  | evaluate _ expr => evaluate ⟨0, none⟩ expr.forgetOrigins
  | debug _ => debug ⟨0, none⟩
  | continue_ _ => continue_ ⟨0, none⟩
  | break_ _ => break_ ⟨0, none⟩
  | extension _ tag args body => extension ⟨0, none⟩ tag (Expr.forgetItems args) (forgetBody body)

/-- The statements of a body without their origins. -/
def forgetBody : List Stmt → List Stmt
  | [] => []
  | stmt :: rest => forgetOrigins stmt :: forgetBody rest

/-- Branches without the origins of their conditions and statements. -/
def forgetBranches : List (Branch Stmt) → List (Branch Stmt)
  | [] => []
  | ⟨condition, body⟩ :: rest => ⟨condition.forgetOrigins, forgetBody body⟩ :: forgetBranches rest

end

end Stmt

/-! ### Templates -/

namespace Template

variable (template : Template)

/-- The written form of a template. -/
def print : String :=
  String.ofList ((Stmt.bodyPieces template.body).flatMap fun piece => piece.print.toList)

/-- The number of levels of nesting that the written form of a template takes. -/
def nesting : Nat :=
  Stmt.bodyNesting template.body

/-- Templates that have a written form. -/
def Printable : Prop :=
  ∀ stmt ∈ template.body, stmt.Printable

/-- A template without its name and without the origins of its nodes. -/
def forgetOrigins : Template :=
  ⟨Stmt.forgetBody template.body, none⟩

end Template

end Stencil
