import Stencil.Proofs.Stmt.Composed

/-!
# Derivations of statements

Which statement is read from one place of a stream up to another. A derivation has a rule for each
form of statement: the tokens that the tags of the form consist of, what the rules for the parts of
the tags read between them, and derivations of the bodies one construct deeper. A body is derived up
to the tag that ends it, and the words of that tag are left to the statement around it.
-/

namespace Stencil

theorem Reads.of_ok {α : Type} {stream : TokenStream} {least start stop : Nat} {rule : Reading α}
    {value : α} (reads : Reads stream least start rule)
    (outcome : rule stream start = .ok value stop) :
    Passes stream start stop ∧ start + least ≤ stop := by
  rw [Reads, outcome] at reads
  exact reads

theorem Reading.Forward.of_ok {α : Type} {stream : TokenStream} {start stop : Nat}
    {rule : Reading α} {value : α} (forward : Reading.Forward stream rule)
    (outcome : rule stream start = .ok value stop) : start ≤ stop := by
  have soFar := forward start
  rwa [outcome] at soFar

namespace Stmt

/-- The levels of nesting that are left with a number of constructs open. -/
def levelsAt [Limits] (depth : Nat) : Nat := maxDepth - depth

/-- Where an expression is read, there is a level left for it. -/
theorem lt_maxDepth_of_parse [Limits] {stream : TokenStream} {depth start stop : Nat} {expr : Expr}
    (reads : Expr.parse (levelsAt depth) stream start = .ok expr stop) : depth < maxDepth := by
  by_contra full
  rw [levelsAt, Nat.sub_eq_zero_of_le (Nat.not_lt.1 full)] at reads
  cases reads

/-- What a derivation is about. -/
inductive Part where
  /-- A statement, or none where there is a comment. -/
  | statement (stmt : Option Stmt)
  /-- Statements up to a tag with one of some words, and the word of that tag. -/
  | body (enders : List String) (stmts : List Stmt) (ender : String)
  /-- The branches after a tag with a given word, and the word of the tag after the last one. -/
  | branches (ender : String) (elifs : List (Branch Stmt)) (last : String)
  /-- The statements after a tag with a given word, if the word is `else`, up to a closing tag. -/
  | otherwise (ender closer : String) (stmts : List Stmt)

/-- A block tag with a given word starts at a place. -/
structure Begins (stream : TokenStream) (start : Nat) (word : String) : Prop where
  isBlock : (stream.get start).kind = .blockBegin
  isWord : (stream.get (start + 1)).word? = some word

/-- A block tag with a given word stands from one place up to its end at another. -/
structure Tag (stream : TokenStream) (start : Nat) (word : String) (stop : Nat) : Prop
    extends Begins stream start word where
  inside : Passes stream (start + 1) stop
  ends : (stream.get stop).kind = .blockEnd

/-- The origin of a statement that starts at a place. -/
def originFrom (stream : TokenStream) (start : Nat) : Origin :=
  ⟨(stream.get start).line, stream.sourceName⟩

/-- Words of the tags that stand alone. -/
def aloneWords : List String := ["continue", "break", "debug"]

variable [Limits]

/-- Reads an expression if one is there. -/
def optional (isThere : Bool) (levels : Nat) : Reading (Option Expr) :=
  if isThere then some <$> Expr.parse levels else pure none

omit [Limits] in
/-- Reads the word that must follow `ignore`. -/
def missing (ignoreMissing : Bool) : Reading Unit :=
  if ignoreMissing then Reading.expectWord "missing" else pure ()

/-- Reads the parameters of a call tag, if there are any. -/
def callParams (levels : Nat) : Reading (List Parameter) := do
  if (← Reading.current).kind = .lparen then signature (Expr.deeper levels) else pure []

/-- A part is read from one place up to another, with a number of constructs open. -/
inductive Derived (stream : TokenStream) : (depth start : Nat) → Part → (stop : Nat) → Prop where
  | text {depth start stop : Nat} {content : String} (isData : (stream.get start).kind = .data)
      (reads : plainText stream start = .ok content stop) :
      Derived stream depth start (.statement (some (.text (originFrom stream start) content))) stop
  | output {depth start stop : Nat} {expr : Expr} (room : depth < maxDepth)
      (isOutput : (stream.get start).kind = .variableBegin)
      (reads : Expr.parse (levelsAt (depth + 1)) stream (start + 1) = .ok expr stop)
      (ends : (stream.get stop).kind = .variableEnd) :
      Derived stream depth start (.statement (some (.output (originFrom stream start) expr)))
        (stop + 1)
  | raw {depth start stop : Nat} {content : String} (isRaw : (stream.get start).kind = .rawBegin)
      (reads : plainText stream (start + 1) = .ok content stop)
      (ends : (stream.get stop).kind = .rawEnd) :
      Derived stream depth start (.statement (some (.text (originFrom stream start) content)))
        (stop + 1)
  | comment {depth start stop : Nat}
      (isComment : (stream.get start).kind = .commentBegin ∨
        (stream.get start).kind = .lineComment)
      (reads : skipComment stream start = .ok () stop) :
      Derived stream depth start (.statement none) stop
  | continue_ {depth start stop : Nat} {word : String} (tag : Tag stream start word stop)
      (isAlone : word ∈ aloneWords)
      (isKeyword : (stream.get (start + 1)).kind = .keyword .continue_) :
      Derived stream depth start (.statement (some (.continue_ (originFrom stream start))))
        (stop + 1)
  | break_ {depth start stop : Nat} {word : String} (tag : Tag stream start word stop)
      (isAlone : word ∈ aloneWords) (isKeyword : (stream.get (start + 1)).kind = .keyword .break_) :
      Derived stream depth start (.statement (some (.break_ (originFrom stream start)))) (stop + 1)
  | debug {depth start stop : Nat} {word : String} (tag : Tag stream start word stop)
      (isAlone : word ∈ aloneWords) (isKeyword : (stream.get (start + 1)).kind = .keyword .debug) :
      Derived stream depth start (.statement (some (.debug (originFrom stream start)))) (stop + 1)
  | evaluate {depth start stop : Nat} {expr : Expr} (room : depth < maxDepth)
      (tag : Tag stream start "do" stop)
      (reads : Expr.parse (levelsAt (depth + 1)) stream (start + 2) = .ok expr stop) :
      Derived stream depth start (.statement (some (.evaluate (originFrom stream start) expr)))
        (stop + 1)
  | parent {depth start stop : Nat} {template : Expr} (room : depth < maxDepth)
      (tag : Tag stream start "extends" stop)
      (reads : Expr.parse (levelsAt (depth + 1)) stream (start + 2) = .ok template stop) :
      Derived stream depth start (.statement (some (.parent (originFrom stream start) template)))
        (stop + 1)
  | inclusion {depth start first second third stop : Nat} {template : Expr}
      {ignoreMissing withContext : Bool} (room : depth < maxDepth)
      (tag : Tag stream start "include" stop)
      (reads : Expr.parse (levelsAt (depth + 1)) stream (start + 2) = .ok template first)
      (ignores : Reading.skipWord "ignore" stream first = .ok ignoreMissing second)
      (isMissing : missing ignoreMissing stream second = .ok () third)
      (inContext : contextModifier true stream third = .ok withContext stop) :
      Derived stream depth start (.statement (some
        (.inclusion (originFrom stream start) template withContext ignoreMissing))) (stop + 1)
  | importAs {depth start first second third stop : Nat} {template : Expr} {target : String}
      {withContext : Bool} (room : depth < maxDepth) (tag : Tag stream start "import" stop)
      (reads : Expr.parse (levelsAt (depth + 1)) stream (start + 2) = .ok template first)
      (renames : Reading.expectWord "as" stream first = .ok () second)
      (named : Reading.identifier stream second = .ok target third)
      (inContext : contextModifier false stream third = .ok withContext stop) :
      Derived stream depth start (.statement (some
        (.importAs (originFrom stream start) template target withContext))) (stop + 1)
  | importNames {depth start first second stop : Nat} {template : Expr} {names : List ImportName}
      {withContext : Bool} (room : depth < maxDepth) (tag : Tag stream start "from" stop)
      (reads : Expr.parse (levelsAt (depth + 1)) stream (start + 2) = .ok template first)
      (isImport : (stream.get first).kind = .keyword .import_)
      (named : importedNames stream (first + 1) = .ok names second)
      (inContext : contextModifier false stream second = .ok withContext stop) :
      Derived stream depth start (.statement (some
        (.importNames (originFrom stream start) template names withContext))) (stop + 1)
  | forLoop {depth start first second third fourth inner middle last stop : Nat}
      {targets : List String} {iter : Expr} {hasFilter isRecursive : Bool} {filter : Option Expr}
      {body elseBody : List Stmt} {ender : String} (room : depth < maxDepth)
      (tag : Tag stream start "for" inner)
      (targeted : assignTargets stream (start + 2) = .ok targets first)
      (isIn : (stream.get first).kind = .keyword .in_)
      (reads : Expr.parseUnconditional (levelsAt (depth + 1)) stream (first + 1) =
        .ok iter second)
      (filters : Reading.skipIf (.keyword .if_) stream second = .ok hasFilter third)
      (filtered : optional hasFilter (levelsAt (depth + 1)) stream third = .ok filter fourth)
      (recursive : Reading.skipWord "recursive" stream fourth = .ok isRecursive inner)
      (repeated : Derived stream (depth + 1) (inner + 1) (.body ["endfor", "else"] body ender)
        middle)
      (closes : Tag stream middle ender last)
      (rest : Derived stream (depth + 1) (last + 1) (.otherwise ender "endfor" elseBody) stop) :
      Derived stream depth start (.statement (some
        (.forLoop (originFrom stream start) targets iter filter isRecursive body elseBody))) stop
  | choice {depth start inner middle more last stop : Nat} {condition : Expr}
      {body elseBody : List Stmt} {elifs : List (Branch Stmt)} {ender lastEnder : String}
      (room : depth < maxDepth) (tag : Tag stream start "if" inner)
      (reads : Expr.parse (levelsAt (depth + 1)) stream (start + 2) = .ok condition inner)
      (guarded : Derived stream (depth + 1) (inner + 1) (.body branchEnders body ender) middle)
      (branches : Derived stream (depth + 1) middle (.branches ender elifs lastEnder) more)
      (closes : Tag stream more lastEnder last)
      (rest : Derived stream (depth + 1) (last + 1) (.otherwise lastEnder "endif" elseBody) stop) :
      Derived stream depth start (.statement (some
        (.choice (originFrom stream start) condition body elifs elseBody))) stop
  | assign {depth start first stop : Nat} {targets : List String} {value : Expr}
      (room : depth < maxDepth) (tag : Tag stream start "set" stop)
      (targeted : assignTargets stream (start + 2) = .ok targets first)
      (assigns : (stream.get first).kind = .assign)
      (reads : Expr.parse (levelsAt (depth + 1)) stream (first + 1) = .ok value stop) :
      Derived stream depth start (.statement (some
        (.assign (originFrom stream start) targets (some value) []))) (stop + 1)
  | capture {depth start inner middle stop : Nat} {targets : List String} {body : List Stmt}
      (room : depth < maxDepth) (tag : Tag stream start "set" inner)
      (targeted : assignTargets stream (start + 2) = .ok targets inner)
      (isSingle : targets.length = 1)
      (captured : Derived stream (depth + 1) (inner + 1) (.body ["endset"] body "endset") middle)
      (closes : Tag stream middle "endset" stop) :
      Derived stream depth start (.statement (some
        (.assign (originFrom stream start) targets none body))) (stop + 1)
  | block {depth start first inner middle stop : Nat} {name : String} {isScoped isRequired : Bool}
      {body : List Stmt} (room : depth < maxDepth) (tag : Tag stream start "block" inner)
      (named : Reading.identifier stream (start + 2) = .ok name first)
      (modified : blockModifiers stream first = .ok (isScoped, isRequired) inner)
      (inside : Derived stream (depth + 1) (inner + 1) (.body ["endblock"] body "endblock") middle)
      (closes : Tag stream middle "endblock" stop) :
      Derived stream depth start (.statement (some
        (.block (originFrom stream start) name isScoped isRequired body))) (stop + 1)
  | macro_ {depth start first inner middle stop : Nat} {name : String} {params : List Parameter}
      {body : List Stmt} (room : depth < maxDepth) (tag : Tag stream start "macro" inner)
      (named : Reading.identifier stream (start + 2) = .ok name first)
      (signed : signature (Expr.deeper (levelsAt (depth + 1))) stream first = .ok params inner)
      (inside : Derived stream (depth + 1) (inner + 1) (.body ["endmacro"] body "endmacro") middle)
      (closes : Tag stream middle "endmacro" stop) :
      Derived stream depth start (.statement (some
        (.macro_ (originFrom stream start) name params body (bodyReads body "varargs")
          (bodyReads body "kwargs")))) (stop + 1)
  | bareCall {depth start first stop : Nat} {call : Expr} (room : depth < maxDepth)
      (tag : Tag stream start "call" stop)
      (signed : callParams (levelsAt (depth + 1)) stream (start + 2) = .ok [] first)
      (reads : Expr.parse (levelsAt (depth + 1)) stream first = .ok call stop)
      (isCall : call.isCall = true)
      (isBare : endcallFollows 0 (stream.significant.toList.drop (stop + 1)) = false) :
      Derived stream depth start (.statement (some (.bareCall (originFrom stream start) call)))
        (stop + 1)
  | callBlock {depth start first inner middle stop : Nat} {params : List Parameter} {call : Expr}
      {body : List Stmt} (room : depth < maxDepth) (tag : Tag stream start "call" inner)
      (signed : callParams (levelsAt (depth + 1)) stream (start + 2) = .ok params first)
      (reads : Expr.parse (levelsAt (depth + 1)) stream first = .ok call inner)
      (isCall : call.isCall = true)
      (hasBody : endcallFollows 0 (stream.significant.toList.drop (inner + 1)) = true)
      (inside : Derived stream (depth + 1) (inner + 1) (.body ["endcall"] body "endcall") middle)
      (closes : Tag stream middle "endcall" stop) :
      Derived stream depth start (.statement (some
        (.callBlock (originFrom stream start) call params body))) (stop + 1)
  | scope {depth start inner middle stop : Nat} {given : List (Named Expr)} {body : List Stmt}
      (room : depth < maxDepth) (tag : Tag stream start "with" inner)
      (reads : assignments (Expr.deeper (levelsAt (depth + 1))) stream (start + 2) =
        .ok given inner)
      (inside : Derived stream (depth + 1) (inner + 1) (.body ["endwith"] body "endwith") middle)
      (closes : Tag stream middle "endwith" stop) :
      Derived stream depth start (.statement (some
        (.scope (originFrom stream start) given body))) (stop + 1)
  | filtered {depth start inner middle stop : Nat} {filters : List FilterCall} {body : List Stmt}
      (room : depth < maxDepth) (tag : Tag stream start "filter" inner)
      (reads : filterCalls (Expr.deeper (levelsAt (depth + 1))) stream (start + 2) =
        .ok filters inner)
      (inside : Derived stream (depth + 1) (inner + 1) (.body ["endfilter"] body "endfilter")
        middle)
      (closes : Tag stream middle "endfilter" stop) :
      Derived stream depth start (.statement (some
        (.filtered (originFrom stream start) filters body))) (stop + 1)
  | autoescape {depth start inner middle stop : Nat} {enabled : Expr} {body : List Stmt}
      (room : depth < maxDepth) (tag : Tag stream start "autoescape" inner)
      (reads : Expr.parse (levelsAt (depth + 1)) stream (start + 2) = .ok enabled inner)
      (inside : Derived stream (depth + 1) (inner + 1)
        (.body ["endautoescape"] body "endautoescape") middle)
      (closes : Tag stream middle "endautoescape" stop) :
      Derived stream depth start (.statement (some
        (.autoescape (originFrom stream start) enabled body))) (stop + 1)
  | ended {depth start : Nat} {enders : List String} {ender : String}
      (begins : Begins stream start ender) (isEnder : ender ∈ enders) :
      Derived stream depth start (.body enders [] ender) start
  | more {depth start middle stop : Nat} {enders : List String} {stmt : Option Stmt}
      {stmts : List Stmt} {ender : String}
      (first : Derived stream depth start (.statement stmt) middle)
      (rest : Derived stream depth middle (.body enders stmts ender) stop) :
      Derived stream depth start (.body enders (stmt.toList ++ stmts) ender) stop
  | noBranch {depth start : Nat} {ender : String} (begins : Begins stream start ender)
      (notElif : ender ≠ "elif") :
      Derived stream depth start (.branches ender [] ender) start
  | branch {depth start inner middle stop : Nat} {condition : Expr} {body : List Stmt}
      {elifs : List (Branch Stmt)} {ender last : String} (tag : Tag stream start "elif" inner)
      (reads : Expr.parse (levelsAt depth) stream (start + 2) = .ok condition inner)
      (guarded : Derived stream depth (inner + 1) (.body branchEnders body ender) middle)
      (rest : Derived stream depth middle (.branches ender elifs last) stop) :
      Derived stream depth start (.branches "elif" (⟨condition, body⟩ :: elifs) last) stop
  | noElse {depth start : Nat} {ender closer : String} (notElse : ender ≠ "else") :
      Derived stream depth start (.otherwise ender closer []) start
  | else_ {depth start middle stop : Nat} {closer : String} {stmts : List Stmt}
      (inside : Derived stream depth start (.body [closer] stmts closer) middle)
      (closes : Tag stream middle closer stop) :
      Derived stream depth start (.otherwise "else" closer stmts) (stop + 1)

variable {stream : TokenStream} {depth start : Nat} {word : String}

omit [Limits] in
theorem Begins.notEnd (begins : Begins stream start word) :
    (stream.get start).kind ≠ .eof ∧ (stream.get (start + 1)).kind ≠ .eof :=
  ⟨by simp [begins.isBlock],
    Token.Kind.ne_eof_of_isInner (Token.isInner_of_word? begins.isWord)⟩

omit [Limits] in
/-- The word of a tag stands inside of the tag. -/
theorem Begins.passes (begins : Begins stream start word) :
    Passes stream (start + 1) (start + 2) :=
  .succ (Token.isInner_of_word? begins.isWord)

/-- A part is never read backwards. -/
theorem Derived.inOrder (closed : stream.IsClosed) {part : Part} {stop : Nat}
    (derived : Derived stream depth start part stop) : start ≤ stop := by
  induction derived with
  | text _ reads => exact plainText_forward.of_ok reads
  | comment _ reads => exact skipComment_forward.of_ok reads
  | raw _ reads =>
      have inOrder := plainText_forward.of_ok reads
      omega
  | output _ _ reads =>
      have inOrder := ((Expr.parse_reads closed _).of_ok reads).2
      omega
  | continue_ tag | break_ tag | debug tag | evaluate _ tag | parent _ tag | inclusion _ tag
  | importAs _ tag | importNames _ tag | assign _ tag | bareCall _ tag =>
      have inOrder := tag.inside.inOrder
      omega
  | forLoop _ tag _ _ _ _ _ _ _ closes _ ihBody ihRest =>
      have := tag.inside.inOrder
      have := closes.inside.inOrder
      omega
  | choice _ tag _ _ _ closes _ ihBody ihBranches ihRest =>
      have := tag.inside.inOrder
      have := closes.inside.inOrder
      omega
  | capture _ tag _ _ _ closes ih | block _ tag _ _ _ closes ih | macro_ _ tag _ _ _ closes ih
  | callBlock _ tag _ _ _ _ _ closes ih | scope _ tag _ _ closes ih | filtered _ tag _ _ closes ih
  | autoescape _ tag _ _ closes ih =>
      have := tag.inside.inOrder
      have := closes.inside.inOrder
      omega
  | ended | noBranch | noElse => exact Nat.le_refl _
  | more _ _ ihFirst ihRest => exact Nat.le_trans ihFirst ihRest
  | branch tag _ _ _ ihBody ihRest =>
      have := tag.inside.inOrder
      omega
  | else_ _ closes ih =>
      have := closes.inside.inOrder
      omega

end Stmt

end Stencil
