import Stencil.Proofs.Stmt.Origins
import Stencil.Proofs.Stmt.Passing
import Stencil.Proofs.Stmt.Steps
import Stencil.Proofs.Stmt.WrittenPieces
import Stencil.Proofs.Stmt.WrittenTags

/-!
# Written bodies are read back

A rule for statements that reads given statements back also reads a body of them back, up to the
tag that closes it. For the bodies of a loop or a choice, this may be the tag of the next branch.

A look ahead of a call tag without a body must not find an `endcall` tag. This is asked of the
tokens after a statement, and is kept from there to the statements inside of it.
-/

namespace Stencil

open Reading Parsing Lexeme

variable {stream : TokenStream} {low depth needed : Nat} {ahead rest : List Lexeme}

/-! ### Steps of rules for tags -/

namespace ParsesOff

variable [Limits] {α : Type} {good : α → Prop} {lexeme : Lexeme}

/-- A token of a given kind is read. -/
theorem token {kind : Token.Kind} {next : Token → Parsing α} (isKind : lexeme.kind = kind)
    (expected : String)
    (later : ∀ token, ParsesOff stream low depth needed ahead rest (next token) good) :
    ParsesOff stream low depth needed (lexeme :: ahead) rest
      (liftM (expect kind expected) >>= next) good :=
  (lift (expect_readsOff isKind expected)).bind_free fun token _ => later token

/-- The word of a tag is read that is not a reserved one. -/
theorem tagWord {word : String} {next : Unit → Parsing α} (isWord : lexeme.word? = some word)
    (later : ParsesOff stream low depth needed ahead rest (next ()) good) :
    ParsesOff stream low depth needed (lexeme :: ahead) rest
      (liftM (expectWord word) >>= next) good :=
  (lift (expectWord_readsOff isWord)).bind_free fun _ _ => later

/-- The end of a tag is read. -/
theorem blockEnd {next : Token → Parsing α}
    (later : ∀ token, ParsesOff stream low depth needed ahead rest (next token) good) :
    ParsesOff stream low depth needed (.blockEnd :: ahead) rest
      (liftM expectBlockEnd >>= next) good :=
  token rfl _ later

/-- A statement is put together where its last tag has been read. -/
theorem finish {make : Origin → α} {opening : Token} (enough : needed ≤ maxDepth - depth)
    (isGood : ∀ origin, good (make origin)) :
    ParsesOff stream low depth needed ahead ahead
      (Stmt.originOf opening >>= fun origin => pure (make origin)) good :=
  (lift (originAt_readsOff opening.line)).bind_free fun origin _ => .pure enough (isGood origin)

end ParsesOff

namespace Stmt

/-! ### Statements that agree -/

/-- Two statements are the same up to their origins. -/
def Agrees (stmt found : Stmt) : Prop :=
  found.forgetOrigins = stmt.forgetOrigins

theorem word?_of_mem_closingTags {word : String} (isClosing : word ∈ closingTags) :
    (Lexeme.word word).word? = some word := by
  have each : ∀ word ∈ closingTags, (Lexeme.word word).word? = some word := by decide
  exact each word isClosing

/-! ### No `endcall` tag ahead -/

/-- No `endcall` tag ahead closes a call tag before the tokens, unless none is open. -/
def CallsEnd (noneOpen : Prop) (ahead : List Lexeme) : Prop :=
  noneOpen ∨ ∀ calls, endcallAhead calls ahead = false

namespace CallsEnd

variable {noneOpen noneOpen' : Prop}

theorem mono (ends : CallsEnd noneOpen ahead) (fewer : noneOpen → noneOpen') :
    CallsEnd noneOpen' ahead :=
  ends.imp_left fewer

theorem before {pieces : List Piece} (ends : CallsEnd noneOpen ahead)
    (counted : CallsCounted pieces noneOpen') : CallsEnd noneOpen (Piece.row pieces ++ ahead) :=
  ends.imp_right counted.endcallAhead_eq_false

/-- What holds after a statement holds for the statements of its bodies. -/
theorem inner {stmt : Stmt} {body : List Stmt} (ends : CallsEnd (stmt.hasBareCall = false) ahead)
    (isBody : body ∈ stmt.bodies) : CallsEnd (∀ inner ∈ body, inner.hasBareCall = false) ahead :=
  ends.mono fun noBareCall _ => hasBareCall_eq_false noBareCall isBody

/-- A tag that closes no call is passed over. -/
theorem closing {ender : String} (ends : CallsEnd noneOpen ahead) (isClosing : ender ∈ closingTags)
    (notEndcall : ender ≠ "endcall") :
    CallsEnd noneOpen (.blockBegin :: .word ender :: .blockEnd :: ahead) := by
  have enders : ∀ ender ∈ closingTags, isBuiltinTag ender = true ∧ ender ≠ "raw" ∧
      ender ≠ "call" := by
    decide
  rcases enders ender isClosing with ⟨isTag, notRaw, notCall⟩
  have isWord := word?_of_mem_closingTags isClosing
  have counted := CallsCounted.tag (.tag isTag notRaw areSpelt_nil) (by simpa [isWord] using notCall)
    (by simpa [isWord] using notEndcall)
  simpa [Piece.lexemes] using ends.before counted

end CallsEnd

theorem endcallAhead_append_ending (calls : Nat) (ahead : List Lexeme) :
    endcallAhead calls (ahead ++ [.ending]) = endcallAhead calls ahead := by
  induction ahead generalizing calls with
  | nil => rfl
  | cons lexeme ahead ih =>
      have sameNext : next (ahead ++ [.ending]) = next ahead := by
        cases ahead with
        | nil => rfl
        | cons => rfl
      simp only [List.cons_append, endcallAhead, sameNext, ih]

/-- The look ahead of a call tag. -/
theorem hasEndcall_readsOff [Limits] {levels : Nat} :
    ReadsOff stream low levels 0 ahead ahead hasEndcall (· = endcallAhead 0 ahead) := by
  rintro cursor ⟨isAhead, later⟩
  refine ⟨Nat.zero_le _, ⟨isAhead, later⟩, ?_⟩
  rw [endcallFollows_eq, isAhead, endcallAhead_append_ending]

theorem callsCounted_of_printable {body : List Stmt} (each : ∀ stmt ∈ body, stmt.Printable) :
    CallsCounted (bodyPieces body) (∀ stmt ∈ body, stmt.hasBareCall = false) :=
  callsCounted_body each fun stmt isStmt _ => (each stmt isStmt).callsCounted

/-! ### Bodies -/

/-- A rule for statements reads a written statement back. -/
def ReadsBack [Limits] (statement : Parsing (Option Stmt)) (stream : TokenStream) (low : Nat)
    (stmt : Stmt) : Prop :=
  ∀ depth rest, CallsEnd (stmt.hasBareCall = false) rest →
    ParsesOff stream low depth stmt.nesting (Piece.row stmt.pieces ++ rest) rest statement
      fun found => ∃ parsed, found = some parsed ∧ stmt.Agrees parsed

/-- The statements of a body have a written form and are read back. -/
structure BodyReads [Limits] (statement : Parsing (Option Stmt)) (stream : TokenStream) (low : Nat)
    (body : List Stmt) : Prop where
  printable : ∀ stmt ∈ body, stmt.Printable
  reads : ∀ stmt ∈ body, ReadsBack statement stream low stmt

section

variable [Limits] {levels : Nat} {word : String} {words : List String}

theorem atTag_readsOff_some (isWord : (Lexeme.word word).word? = some word)
    (isMember : words.contains word = true) :
    ReadsOff stream low levels 0 (.blockBegin :: .word word :: rest)
      (.blockBegin :: .word word :: rest) (atTag words) (· = some word) := by
  apply current_readsOff.bind_free
  intro token sameToken
  rw [if_pos (by rw [← Token.kind_lexeme, sameToken]; rfl)]
  apply peek_readsOff.bind_free
  intro second sameSecond
  rw [← Token.word?_lexeme, sameSecond, List.tail_cons, next_cons, isWord, Option.filter_some,
    if_pos isMember]
  exact .pure_eq _

/-- What opens a statement does not close a body. -/
theorem atTag_readsOff_none {piece : Piece} (opens : piece.isOpening = true)
    (closing : ∀ word ∈ words, word ∈ closingTags) :
    ReadsOff stream low levels 0 (piece.lexemes ++ rest) (piece.lexemes ++ rest) (atTag words)
      (· = none) := by
  apply current_readsOff.bind_free
  intro token sameToken
  cases piece with
  | tag word arguments =>
      have distinct : ∀ word ∈ builtinTags, word ∉ closingTags := by decide
      have words? : ∀ word ∈ builtinTags, (Lexeme.word word).word? = some word := by decide
      have isTag : word ∈ builtinTags := by
        rw [Piece.isOpening, Bool.and_eq_true] at opens
        exact List.contains_iff_mem.1 opens.1
      have notMember : words.contains word = false := by
        rw [← Bool.not_eq_true, List.contains_iff_mem]
        exact fun isMember => distinct word isTag (closing word isMember)
      rw [if_pos (by rw [← Token.kind_lexeme, sameToken]; rfl)]
      apply peek_readsOff.bind_free
      intro second sameSecond
      rw [← Token.word?_lexeme, sameSecond]
      change ReadsOff _ _ _ _ _ _ (pure ((Lexeme.word word).word?.filter words.contains)) _
      rw [words? word isTag, Option.filter_some, notMember]
      exact .pure_eq _
  | output lexemes =>
      rw [if_neg (by rw [← Token.kind_lexeme, sameToken]; exact Token.Kind.noConfusion)]
      exact .pure_eq _
  | raw content =>
      rw [if_neg (by rw [← Token.kind_lexeme, sameToken]; exact Token.Kind.noConfusion)]
      exact .pure_eq _

end

section

variable [Limits] {statement : Parsing (Option Stmt)} {tag : String} {opening : Token}
  {enders : List String} {ender : String} {before : List Stmt}

theorem bodyStep_parsesOff_done (isEnder : ender ∈ enders)
    (closing : ∀ word ∈ enders, word ∈ closingTags) :
    ParsesOff stream low depth 0 (.blockBegin :: .word ender :: rest) rest
      (bodyStep statement tag opening enders (before, none))
      fun result => ∃ last, result = .done last ∧ last = (before, some ender) := by
  have isWord := word?_of_mem_closingTags (closing ender isEnder)
  apply (ParsesOff.lift (atTag_readsOff_some isWord (List.contains_iff_mem.2 isEnder))).bind_free
  rintro _ rfl
  apply (ParsesOff.lift advance_readsOff).bind_free
  intro _ _
  apply (ParsesOff.lift advance_readsOff).bind_free
  intro _ _
  exact .pure (Nat.zero_le _) ⟨_, rfl, rfl⟩

theorem bodyStep_parsesOff_yield {stmt : Stmt} (printable : stmt.Printable)
    (reads : ReadsBack statement stream low stmt)
    (closing : ∀ word ∈ enders, word ∈ closingTags)
    (ends : CallsEnd (stmt.hasBareCall = false) rest) :
    ParsesOff stream low depth stmt.nesting (Piece.row stmt.pieces ++ rest) rest
      (bodyStep statement tag opening enders (before, none)) fun result =>
        ∃ more, result = .yield more ∧ more.2 = none ∧
          forgetBody more.1 = forgetBody before ++ [stmt.forgetOrigins] := by
  have parses := reads depth rest ends
  rcases printable.isOpening with ⟨piece, others, samePieces, opens⟩
  rw [samePieces, Piece.row_cons, List.append_assoc] at parses ⊢
  apply (ParsesOff.lift (atTag_readsOff_none opens closing)).bind_free
  rintro _ rfl
  apply (ParsesOff.lift current_readsOff).bind_free
  intro token sameToken
  rw [if_neg (by rw [← Token.kind_lexeme, sameToken]; exact piece.kind_next_ne_eof _)]
  apply parses.bind (Nat.le_refl _)
  rintro _ ⟨parsed, rfl, agrees⟩ enough
  refine .pure enough ⟨_, rfl, rfl, ?_⟩
  rw [Agrees] at agrees
  simp [forgetBody_eq_map, agrees]

omit [Limits] in
theorem length_row_pos {stmt : Stmt} (printable : stmt.Printable) :
    0 < (Piece.row stmt.pieces).length := by
  rcases printable.isOpening with ⟨piece, others, samePieces, _⟩
  rw [samePieces, Piece.row_cons, List.length_append]
  cases piece <;> simp [Piece.lexemes]

variable {body : List Stmt}

theorem bodyLoop_parsesOff (reads : BodyReads statement stream low body)
    (isEnder : ender ∈ enders) (closing : ∀ word ∈ enders, word ∈ closingTags)
    (ends : CallsEnd (∀ stmt ∈ body, stmt.hasBareCall = false)
      (.blockBegin :: .word ender :: rest)) :
    ParsesOff stream low depth (bodyNesting body)
      (Piece.row (bodyPieces body) ++ .blockBegin :: .word ender :: rest) rest
      (Parsing.loop (bodyStep statement tag opening enders) (before, none)) fun last =>
        last.2 = some ender ∧ forgetBody last.1 = forgetBody before ++ forgetBody body := by
  induction body generalizing before with
  | nil =>
      apply ParsesOff.loop_done
      apply (bodyStep_parsesOff_done isEnder closing).mono
      rintro _ ⟨last, rfl, rfl⟩
      exact ⟨_, rfl, rfl, (List.append_nil _).symm⟩
  | cons stmt body ih =>
      rcases List.forall_mem_cons.1 reads.printable with ⟨printable, eachPrintable⟩
      rcases List.forall_mem_cons.1 reads.reads with ⟨readsFirst, eachReads⟩
      have endsBody := ends.mono fun none => (List.forall_mem_cons.1 none).2
      have endsFirst : CallsEnd (stmt.hasBareCall = false) _ :=
        (ends.mono fun none => (List.forall_mem_cons.1 none).1).before
          (callsCounted_of_printable eachPrintable)
      have positive := length_row_pos printable
      rw [bodyPieces, Piece.row_append, List.append_assoc, bodyNesting]
      apply ParsesOff.loop_yield (bodyStep_parsesOff_yield printable readsFirst closing endsFirst)
      · rw [@List.length_append _ (Piece.row stmt.pieces)]
        omega
      · exact Nat.le_max_left _ _
      · rintro ⟨more, _⟩ ⟨rfl, sameMore⟩ enough
        have later := @ih more ⟨eachPrintable, eachReads⟩ endsBody
        apply (later.raise (Nat.le_max_right _ _) (by omega)).mono
        rintro last ⟨sameEnder, sameLast⟩
        refine ⟨sameEnder, ?_⟩
        rw [sameLast, sameMore, forgetBody, List.append_assoc, List.singleton_append]

/-- A written body is read back, and so is the word of the tag that closes it. -/
theorem bodyUntil_parsesOff (reads : BodyReads statement stream low body)
    (isEnder : ender ∈ enders) (closing : ∀ word ∈ enders, word ∈ closingTags)
    (ends : CallsEnd (∀ stmt ∈ body, stmt.hasBareCall = false)
      (.blockBegin :: .word ender :: rest)) :
    ParsesOff stream low depth (bodyNesting body)
      (Piece.row (bodyPieces body) ++ .blockBegin :: .word ender :: rest) rest
      (bodyUntil statement tag opening enders) fun (found, word) =>
        word = ender ∧ forgetBody found = forgetBody body := by
  rw [bodyUntil_eq]
  apply (bodyLoop_parsesOff reads isEnder closing ends).bind (Nat.le_refl _)
  rintro ⟨found, _⟩ ⟨rfl, same⟩ enough
  exact .pure enough ⟨rfl, same⟩

/-- A body that only one tag closes. -/
theorem closedBody_parsesOff (reads : BodyReads statement stream low body)
    (isClosing : ender ∈ closingTags)
    (ends : CallsEnd (∀ stmt ∈ body, stmt.hasBareCall = false)
      (.blockBegin :: .word ender :: .blockEnd :: rest)) :
    ParsesOff stream low depth (bodyNesting body)
      (Piece.row (bodyPieces body) ++ .blockBegin :: .word ender :: .blockEnd :: rest) rest
      (closedBody statement tag opening ender) fun found =>
        forgetBody found = forgetBody body := by
  apply (bodyUntil_parsesOff reads (by simp) (by simpa using isClosing) ends).bind
    (Nat.le_refl _)
  rintro ⟨found, _⟩ ⟨rfl, same⟩ enough
  apply ParsesOff.blockEnd
  intro _
  exact .pure enough same

end

/-! ### `else` parts -/

/-- The word of the tag before an `else` body, which closes the block if there is none. -/
def lastEnder (elseBody : List Stmt) (ender : String) : String :=
  if elseBody.isEmpty then ender else "else"

/-- What is ahead after that tag. -/
def elseAhead (elseBody : List Stmt) (ender : String) (rest : List Lexeme) : List Lexeme :=
  if elseBody.isEmpty then rest
  else Piece.row (bodyPieces elseBody) ++ .blockBegin :: .word ender :: .blockEnd :: rest

theorem row_elseTag (elseBody : List Stmt) (ender : String) (rest : List Lexeme) :
    Piece.row (elseTag elseBody) ++ (Piece.row (bodyPieces elseBody) ++
        .blockBegin :: .word ender :: .blockEnd :: rest) =
      .blockBegin :: .word (lastEnder elseBody ender) :: .blockEnd ::
        elseAhead elseBody ender rest := by
  cases elseBody with
  | nil => rfl
  | cons stmt body => simp [elseTag, lastEnder, elseAhead, Piece.lexemes]

section

variable {statement : Parsing (Option Stmt)} {opening : Token} {ender : String}
  {elseBody : List Stmt} {noneOpen : Prop}

theorem CallsEnd.beforeElse (ends : CallsEnd noneOpen rest)
    (each : ∀ stmt ∈ elseBody, stmt.Printable) (isClosing : ender ∈ closingTags)
    (notEndcall : ender ≠ "endcall") :
    CallsEnd noneOpen (.blockBegin :: .word (lastEnder elseBody ender) :: .blockEnd ::
      elseAhead elseBody ender rest) := by
  rw [← row_elseTag]
  have endsBody := (ends.closing isClosing notEndcall).before (callsCounted_of_printable each)
  exact endsBody.before (callsCounted_elseTag elseBody)

variable [Limits]

/-- An `else` body is read back, also if there is none. -/
theorem elseBody_parsesOff (reads : BodyReads statement stream low elseBody) {tag : String}
    (isClosing : ender ∈ closingTags) (notElse : ender ≠ "else") (notEndcall : ender ≠ "endcall")
    (ends : CallsEnd (∀ stmt ∈ elseBody, stmt.hasBareCall = false) rest) :
    ParsesOff stream low depth (bodyNesting elseBody) (elseAhead elseBody ender rest) rest
      (if lastEnder elseBody ender = "else" then closedBody statement tag opening ender
        else pure []) fun found => forgetBody found = forgetBody elseBody := by
  cases elseBody with
  | nil =>
      rw [lastEnder, if_pos List.isEmpty_nil, if_neg notElse]
      exact .pure (Nat.zero_le _) rfl
  | cons stmt body =>
      rw [if_pos (show lastEnder (stmt :: body) ender = "else" from rfl)]
      exact closedBody_parsesOff reads isClosing (ends.closing isClosing notEndcall)

end

/-! ### Branches -/

/-- The word of the tag before branches, which is another one if there are none. -/
def branchEnder (elifs : List (Branch Stmt)) (last : String) : String :=
  if elifs.isEmpty then last else "elif"

/-- What is ahead after the word of that tag. -/
def branchAhead (last : String) (ahead : List Lexeme) : List (Branch Stmt) → List Lexeme
  | [] => ahead
  | branch :: elifs =>
    branch.condition.lexemes ++ .blockEnd :: (Piece.row (bodyPieces branch.body) ++
      .blockBegin :: .word (branchEnder elifs last) :: branchAhead last ahead elifs)

theorem row_branchPieces (elifs : List (Branch Stmt)) (last : String) (ahead : List Lexeme) :
    Piece.row (branchPieces elifs) ++ .blockBegin :: .word last :: ahead =
      .blockBegin :: .word (branchEnder elifs last) :: branchAhead last ahead elifs := by
  induction elifs with
  | nil => rfl
  | cons branch elifs ih => simp [branchPieces, branchEnder, branchAhead, Piece.lexemes, ih]

section

variable {statement : Parsing (Option Stmt)} {opening : Token} {last : String}
  {elifs : List (Branch Stmt)} {noneOpen : Prop}

theorem branchEnder_mem (isEnder : last ∈ branchEnders) :
    branchEnder elifs last ∈ branchEnders := by
  unfold branchEnder
  split
  · exact isEnder
  · decide

theorem CallsEnd.beforeBranches
    (ends : CallsEnd noneOpen (.blockBegin :: .word last :: ahead))
    (conditions : ∀ branch ∈ elifs, branch.condition.Printable)
    (each : ∀ branch ∈ elifs, ∀ stmt ∈ branch.body, stmt.Printable) :
    CallsEnd noneOpen
      (.blockBegin :: .word (branchEnder elifs last) :: branchAhead last ahead elifs) := by
  rw [← row_branchPieces]
  exact ends.before (callsCounted_branches conditions fun branch isBranch =>
    callsCounted_of_printable (each branch isBranch))

variable [Limits]

theorem elifStep_parsesOff {branch : Branch Stmt} {before : List (Branch Stmt)} {ender : String}
    (condition : branch.condition.Printable) (reads : BodyReads statement stream low branch.body)
    (isEnder : ender ∈ branchEnders)
    (ends : CallsEnd (∀ stmt ∈ branch.body, stmt.hasBareCall = false)
      (.blockBegin :: .word ender :: rest)) :
    ParsesOff stream low depth
      (max (branch.condition.nesting + 1) (bodyNesting branch.body))
      (branch.condition.lexemes ++ .blockEnd :: (Piece.row (bodyPieces branch.body) ++
        .blockBegin :: .word ender :: rest)) rest
      (elifStep statement opening (before, "elif")) fun result =>
        ∃ more, result = .yield more ∧ more.2 = ender ∧
          forgetBranches more.1 = forgetBranches (before ++ [branch]) := by
  rcases branch with ⟨_, body⟩
  apply (condition.expression_parsesOff rfl).bind (Nat.le_max_left _ _)
  intro found agrees enough
  apply ParsesOff.blockEnd
  intro _
  apply (bodyUntil_parsesOff reads isEnder (by decide) ends).bind (Nat.le_max_right _ _)
  rintro ⟨foundBody, _⟩ ⟨rfl, same⟩ enoughBody
  refine .pure (by omega) ⟨_, rfl, rfl, ?_⟩
  rw [Expr.Agrees] at agrees
  simp [forgetBranches_eq_map, agrees, same]

/-- Written branches are read back, and so is the word of the tag after them. -/
theorem elifBranches_parsesOff (conditions : ∀ branch ∈ elifs, branch.condition.Printable)
    (reads : ∀ branch ∈ elifs, BodyReads statement stream low branch.body)
    (isEnder : last ∈ branchEnders) (notElif : last ≠ "elif")
    (ends : CallsEnd (∀ branch ∈ elifs, ∀ stmt ∈ branch.body, stmt.hasBareCall = false)
      (.blockBegin :: .word last :: ahead)) :
    ParsesOff stream low depth (branchNesting elifs) (branchAhead last ahead elifs) ahead
      (elifBranches statement opening (branchEnder elifs last)) fun (found, word) =>
        word = last ∧ forgetBranches found = forgetBranches elifs := by
  have loops (before : List (Branch Stmt)) :
      ParsesOff stream low depth (branchNesting elifs) (branchAhead last ahead elifs) ahead
        (Parsing.loop (elifStep statement opening) (before, branchEnder elifs last))
        fun (found, word) =>
          word = last ∧ forgetBranches found = forgetBranches (before ++ elifs) := by
    induction elifs generalizing before with
    | nil =>
        apply ParsesOff.loop_done
        change ParsesOff _ _ _ _ _ _ (if last = "elif" then _ else _) _
        rw [if_neg notElif, List.append_nil]
        exact .pure (Nat.zero_le _) ⟨_, rfl, rfl, rfl⟩
    | cons branch elifs ih =>
        rw [List.forall_mem_cons] at conditions reads
        have each : ∀ branch ∈ elifs, ∀ stmt ∈ branch.body, stmt.Printable :=
          fun branch isBranch => (reads.2 branch isBranch).printable
        have endsLater := ends.mono fun none => (List.forall_mem_cons.1 none).2
        have endsBody : CallsEnd (∀ stmt ∈ branch.body, stmt.hasBareCall = false) _ :=
          (ends.mono fun none => (List.forall_mem_cons.1 none).1).beforeBranches conditions.2 each
        rw [branchAhead, branchNesting]
        apply ParsesOff.loop_yield
          (elifStep_parsesOff conditions.1 reads.1 (branchEnder_mem isEnder) endsBody)
        · simp only [List.length_append, List.length_cons]
          omega
        · omega
        · rintro ⟨more, _⟩ ⟨rfl, sameMore⟩ enough
          apply ((ih conditions.2 reads.2 endsLater more).raise (by omega) (by omega)).mono
          rintro ⟨found, word⟩ ⟨sameEnder, sameFound⟩
          refine ⟨sameEnder, ?_⟩
          simp only [forgetBranches_eq_map, List.map_append] at sameFound sameMore ⊢
          rw [sameFound, sameMore, List.append_assoc, List.map_singleton, List.singleton_append,
            List.map_cons]
  exact loops []

end

end Stmt

end Stencil
