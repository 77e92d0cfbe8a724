import Stencil.Extension
import Stencil.Stmt.Header
import Stencil.Stmt.Walk

/-!
# The grammar of statements

One rule for each block tag, entered after the token that opens the tag, and the rule for any
statement. A rule for a tag reads up to the end of the last tag that belongs to its block, and
uses the rule for any statement for the bodies in between.

The rule for any statement is used again only beyond the token at which it was started, and this
is why it ends.
-/

namespace Stencil.Stmt

open Reading Parsing

variable [Limits]

/-- The origin of the statement of a tag. -/
def originOf (opening : Token) : Parsing Origin :=
  originAt opening.line

/-- The word of the block tag that is next, if it is one of `words`. -/
def atTag (words : List String) : Reading (Option String) := do
  if (← current).kind = .blockBegin then return (← peek 1).word?.filter words.contains
  else return none

/-- Reads plain text. -/
def textRule : Parsing Stmt := do
  let first ← current
  if first.kind = .data then
    let content ← plainText
    return .text (← originOf first) content
  else refuse first "template data"

/-- Reads a print tag. -/
def outputRule : Parsing Stmt := do
  let opening ← expect .variableBegin "'\x7b\x7b'"
  let expr ← expression
  let _ ← expect .variableEnd "end of variable tag"
  return .output (← originOf opening) expr

/-- Reads a raw block, which is plain text. -/
def rawRule : Parsing Stmt := do
  let opening ← expect .rawBegin "raw block"
  let content ← plainText
  if ← skipIf .rawEnd then return .text (← originOf opening) content
  else throw (.unclosed "raw" ["endraw"] opening.span)

/-- Reads one of the tags that stand alone. -/
def simpleRule (opening : Token) : Parsing Stmt := do
  let tag ← advance
  let origin ← originOf opening
  let stmt ← match tag.kind with
    | .keyword .continue_ => pure (.continue_ origin)
    | .keyword .break_ => pure (.break_ origin)
    | .keyword .debug => pure (.debug origin)
    | _ => refuse tag "'continue', 'break' or 'debug'"
  let _ ← expectBlockEnd
  return stmt

/-- Reads an expression that is evaluated for its effect. -/
def evaluateRule (opening : Token) : Parsing Stmt := do
  let _ ← expect (.keyword .do_) "'do'"
  let expr ← expression
  let _ ← expectBlockEnd
  return .evaluate (← originOf opening) expr

/-- Reads the tag that names the template to extend. -/
def parentRule (opening : Token) : Parsing Stmt := do
  let _ ← expect (.keyword .extends_) "'extends'"
  let template ← expression
  let _ ← expectBlockEnd
  return .parent (← originOf opening) template

/-- Reads an inclusion. -/
def inclusionRule (opening : Token) : Parsing Stmt := do
  let _ ← expect (.keyword .include_) "'include'"
  let template ← expression
  let ignoreMissing ← skipWord "ignore"
  if ignoreMissing then expectWord "missing"
  let withContext ← contextModifier true
  let _ ← expectBlockEnd
  return .inclusion (← originOf opening) template withContext ignoreMissing

/-- Reads an import of a whole template. -/
def importRule (opening : Token) : Parsing Stmt := do
  let _ ← expect (.keyword .import_) "'import'"
  let template ← expression
  expectWord "as"
  let target ← identifier
  let withContext ← contextModifier false
  let _ ← expectBlockEnd
  return .importAs (← originOf opening) template target withContext

/-- Reads an import of names from a template. -/
def importNamesRule (opening : Token) : Parsing Stmt := do
  let _ ← expect (.keyword .from_) "'from'"
  let template ← expression
  let _ ← expect (.keyword .import_) "'import'"
  let names ← importedNames
  let withContext ← contextModifier false
  let _ ← expectBlockEnd
  return .importNames (← originOf opening) template names withContext

section

variable (statement : Parsing (Option Stmt))

/-- Reads statements up to a tag whose word is one of `enders`, and that word. The rest of that tag
is not read. -/
def bodyUntil (tag : String) (opening : Token) (enders : List String) :
    Parsing (List Stmt × String) := do
  let (body, ender?) ← Parsing.loop (fun (body, _) => do
    match ← atTag enders with
    | some ender =>
      let _ ← advance
      let _ ← advance
      return .done (body, some ender)
    | none =>
      if (← current).kind = .eof then throw (.unclosed tag enders opening.span)
      else match ← statement with
        | some stmt => return .yield (body ++ [stmt], none)
        | none => return .yield (body, none)) (([], none) : List Stmt × Option String)
  match ender? with
  | some ender => return (body, ender)
  | none => throw (.unclosed tag enders opening.span)

/-- Reads statements up to the one tag that closes their block. -/
def closedBody (tag : String) (opening : Token) (ender : String) : Parsing (List Stmt) := do
  let (body, _) ← bodyUntil statement tag opening [ender]
  let _ ← expectBlockEnd
  return body

/-- Reads a loop. -/
def forRule (opening : Token) : Parsing Stmt := do
  let _ ← expect (.keyword .for_) "'for'"
  let targets ← assignTargets
  let _ ← expect (.keyword .in_) "'in'"
  let iter ← unconditional
  let filter ← if ← skipIf (.keyword .if_) then some <$> expression else pure none
  let isRecursive ← skipWord "recursive"
  let _ ← expectBlockEnd
  let (body, ender) ← bodyUntil statement "for" opening ["endfor", "else"]
  let _ ← expectBlockEnd
  let elseBody ←
    if ender = "else" then closedBody statement "for" opening "endfor" else pure []
  return .forLoop (← originOf opening) targets iter filter isRecursive body elseBody

/-- Words of the tags that end a branch. -/
def branchEnders : List String := ["elif", "else", "endif"]

/-- Reads the branches after the first one, given the word that ended that one. -/
def elifBranches (opening : Token) (ender : String) : Parsing (List (Branch Stmt) × String) :=
  Parsing.loop (fun (elifs, ender) => do
    if ender = "elif" then
      let condition ← expression
      let _ ← expectBlockEnd
      let (body, ender) ← bodyUntil statement "if" opening branchEnders
      return .yield (elifs ++ [⟨condition, body⟩], ender)
    else return .done (elifs, ender)) ([], ender)

/-- Reads a choice between branches. -/
def choiceRule (opening : Token) : Parsing Stmt := do
  let _ ← expect (.keyword .if_) "'if'"
  let condition ← expression
  let _ ← expectBlockEnd
  let (body, ender) ← bodyUntil statement "if" opening branchEnders
  let (elifs, ender) ← elifBranches statement opening ender
  let _ ← expectBlockEnd
  let elseBody ← if ender = "else" then closedBody statement "if" opening "endif" else pure []
  return .choice (← originOf opening) condition body elifs elseBody

/-- Reads an assignment of a value or of a body. -/
def assignRule (opening : Token) : Parsing Stmt := do
  let _ ← expect (.keyword .set_) "'set'"
  let targets ← assignTargets
  if ← skipIf .assign then
    let value ← expression
    let _ ← expectBlockEnd
    return .assign (← originOf opening) targets (some value) []
  else if targets.length ≠ 1 then
    throw (.violation .captureTargets (← current).span)
  else
    let _ ← expectBlockEnd
    let body ← closedBody statement "set" opening "endset"
    return .assign (← originOf opening) targets none body

/-- Reads a scope with assignments of its own. -/
def scopeRule (opening : Token) : Parsing Stmt := do
  let _ ← expect (.keyword .with_) "'with'"
  let assignments ← withDeeper assignments
  let _ ← expectBlockEnd
  let body ← closedBody statement "with" opening "endwith"
  return .scope (← originOf opening) assignments body

/-- Reads a block whose text goes through filters. -/
def filteredRule (opening : Token) : Parsing Stmt := do
  expectWord "filter"
  let filters ← withDeeper filterCalls
  let _ ← expectBlockEnd
  let body ← closedBody statement "filter" opening "endfilter"
  return .filtered (← originOf opening) filters body

/-- Reads a block for which escaping is turned on or off. -/
def autoescapeRule (opening : Token) : Parsing Stmt := do
  expectWord "autoescape"
  let enabled ← expression
  let _ ← expectBlockEnd
  let body ← closedBody statement "autoescape" opening "endautoescape"
  return .autoescape (← originOf opening) enabled body

/-- Reads a block that another template can replace. Its name may be said again where it ends. -/
def blockRule (opening : Token) : Parsing Stmt := do
  let _ ← expect (.keyword .block) "'block'"
  let name ← identifier
  let (isScoped, isRequired) ← blockModifiers
  let _ ← expectBlockEnd
  let (body, _) ← bodyUntil statement "block" opening ["endblock"]
  let trailing ← current
  if trailing.kind = .name then
    if trailing.text = name then
      let _ ← advance
    else throw (.violation (.endblockName trailing.text name) trailing.span)
  let _ ← expectBlockEnd
  return .block (← originOf opening) name isScoped isRequired body

/-- Reads a macro. It catches surplus arguments if its body reads them. -/
def macroRule (opening : Token) : Parsing Stmt := do
  let _ ← expect (.keyword .macro_) "'macro'"
  let name ← identifier
  let params ← withDeeper signature
  let _ ← expectBlockEnd
  let (body, _) ← bodyUntil statement "macro" opening ["endmacro"]
  let _ ← skipWord name
  let _ ← expectBlockEnd
  return .macro_ (← originOf opening) name params body (bodyReads body "varargs")
    (bodyReads body "kwargs")

/-- Reads a call tag. It has a body if an `endcall` tag further on belongs to it. -/
def callRule (opening : Token) : Parsing Stmt := do
  let _ ← expect (.keyword .call) "'call'"
  let params ← if (← current).kind = .lparen then withDeeper signature else pure []
  let callToken ← current
  let call ← expression
  if !call.isCall then throw (.violation .notACall callToken.span)
  let _ ← expectBlockEnd
  if ← hasEndcall then
    let body ← closedBody statement "call" opening "endcall"
    return .callBlock (← originOf opening) call params body
  else if params.isEmpty then return .bareCall (← originOf opening) call
  else throw (.unclosed "call" ["endcall"] opening.span)

/-- The rules for block tags by the words of the tags. All but those for tags that stand alone go
one construct deeper. -/
def tagRules : List (String × (Token → Parsing Stmt)) :=
  [("for", fun opening => nested "for" (forRule statement opening)),
    ("if", fun opening => nested "if" (choiceRule statement opening)),
    ("set", fun opening => nested "set" (assignRule statement opening)),
    ("block", fun opening => nested "block" (blockRule statement opening)),
    ("extends", fun opening => nested "extends" (parentRule opening)),
    ("include", fun opening => nested "include" (inclusionRule opening)),
    ("import", fun opening => nested "import" (importRule opening)),
    ("from", fun opening => nested "from" (importNamesRule opening)),
    ("macro", fun opening => nested "macro" (macroRule statement opening)),
    ("call", fun opening => nested "call" (callRule statement opening)),
    ("with", fun opening => nested "with" (scopeRule statement opening)),
    ("filter", fun opening => nested "filter" (filteredRule statement opening)),
    ("autoescape", fun opening => nested "autoescape" (autoescapeRule statement opening)),
    ("do", fun opening => nested "do" (evaluateRule opening)),
    ("continue", simpleRule), ("break", simpleRule), ("debug", simpleRule)]

variable (registry : Registry)

/-- Hands a tag to the extension that claims its word. A tag that is declined is passed over, and
whatever the extension read is forgotten. -/
def extensionRule (word : String) (opening : Token) : Parsing (Option Stmt) := do
  let tag ← current
  match registry.find? word with
  | none => throw (.unknownTag word tag.span)
  | some owner =>
    let start := (← here).cursor
    match ← nested "extension" (owner.parseTag statement opening) with
    | some stmt =>
      if (← here).cursor = start then
        throw (.extensionFailed owner.name (.notConsumed word) tag.span)
      else return some stmt
    | none =>
      moveTo start
      skipTag
      return none

/-- Reads a block tag and what belongs to it. -/
def blockTagRule : Parsing (Option Stmt) := do
  let opening ← advance
  let tag ← current
  match tag.word? with
  | none => refuse tag "tag name"
  | some word => match (tagRules statement).lookup word with
    | some rule => some <$> rule opening
    | none =>
      if registry.isClosing word then throw (.violation (.strayInside word) tag.span)
      else extensionRule statement registry word opening

/-- Reads any statement, given the rule for the statements inside it. Comments and declined tags
give none. -/
def statementRule : Parsing (Option Stmt) := do
  let token ← current
  match token.kind with
  | .data => some <$> textRule
  | .variableBegin => some <$> nested "output" outputRule
  | .blockBegin => blockTagRule statement registry
  | .rawBegin => some <$> rawRule
  | .commentBegin | .lineComment =>
    skipComment
    return none
  | _ => refuse token "template data or tag"

end

/-- Reads any statement. The statements inside it are read by the same rule, further on in the
stream. Only an extension can go back. One that goes to the token that opened its own tag, or to one
before it, and uses the rule for statements there, gets the error for too deep a nesting at once,
however many levels are left: this is a convention, for a rule that recurs on the tokens that are
left, and says nothing about the statements that would be read. -/
def parse (registry : Registry) (stream : TokenStream) (place : Place) :
    EStateM.Result SyntaxError Place (Option Stmt) :=
  statementRule (fun _ inner =>
    if place.cursor < inner.cursor ∧ place.cursor < stream.size then
      parse registry stream inner
    else .error (.tooDeep maxDepth (stream.get inner.cursor).span) inner) registry stream place
termination_by stream.size - place.cursor

end Stencil.Stmt
