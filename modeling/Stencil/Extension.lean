import Stencil.Parse.Parsing
import Stencil.Stmt.Basic

/-!
# Extensions

An extension reads tags that the grammar does not know. It claims the words of its tags when it is
registered; no word can be claimed twice, and the words of the grammar cannot be claimed at all.
-/

namespace Stencil

/-- Words of tags that the grammar knows. -/
def builtinTags : List String :=
  ["for", "if", "set", "block", "extends", "include", "import", "from", "macro", "call", "with",
    "filter", "autoescape", "do", "debug", "continue", "break", "raw"]

/-- Words of tags that only close a block or go on with one. -/
def closingTags : List String :=
  ["elif", "else", "endif", "endfor", "endset", "endblock", "endmacro", "endcall", "endwith",
    "endfilter", "endautoescape", "endraw"]

/-- Words that no extension can claim. -/
def isBuiltinTag (word : String) : Bool :=
  builtinTags.contains word || closingTags.contains word

/-- A reader of tags that the grammar does not know. -/
structure Extension where
  name : String
  /-- The words of its tags. -/
  tags : List String
  /-- Reads a tag from its word on, given the rule for statements and the token that opened the
  tag. An extension that gives no statement declines the tag, which is then passed over. -/
  parseTag : Parsing (Option Stmt) → Token → Parsing (Option Stmt)

/-- The extensions in use, in order of registration. -/
structure Registry where
  extensions : List Extension := []

namespace Registry

variable (registry : Registry)

/-- The extension that claims a word. -/
def find? (word : String) : Option Extension :=
  registry.extensions.find? (·.tags.contains word)

/-- Whether an extension claims a word. -/
def handles (word : String) : Bool :=
  (registry.find? word).isSome

/-- The words that are claimed. -/
def tags : List String :=
  registry.extensions.flatMap (·.tags)

/-- Why a word cannot be claimed. -/
def claimFault? (word : String) : Option ExtensionFault :=
  if isBuiltinTag word then some (.builtIn word)
  else (registry.find? word).map fun owner => .taken word owner.name

/-- Refuses a word that the extension with a given name cannot claim. -/
def claim (name word : String) : EStateM SyntaxError Registry Unit := do
  match (← get).claimFault? word with
  | some fault => throw (.extensionFailed name fault .nowhere)
  | none => return

/-- Adds an extension behind the others, unless one of its words cannot be claimed. Whether or not
it is refused, the call gives back the registry that there is after it. -/
def add (extension : Extension) : EStateM SyntaxError Registry Unit := do
  extension.tags.forM (claim extension.name)
  modify fun registry => ⟨registry.extensions ++ [extension]⟩

/-- The registry with one more extension, for a call that is not refused. -/
def register (extension : Extension) : Except SyntaxError Registry :=
  match add extension registry with
  | .ok _ next => .ok next
  | .error error _ => .error error

/-- Words that close a block: those of the grammar, and every word that begins with `end` and is
not claimed. -/
def isClosing (word : String) : Bool :=
  closingTags.contains word ||
    (Text.startsWith "end".toList word.toList && !registry.handles word)

end Registry

end Stencil
