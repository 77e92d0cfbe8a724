import Stencil.Proofs.Expr.Spelling
import Stencil.Proofs.Lexer.Pieces
import Stencil.Proofs.Parse.Consuming
import Stencil.Stmt.Header

/-!
# Pieces of written statements

Three facts about the pieces of a written statement. All of them have a written form. The first one
opens a statement. And a look ahead for an `endcall` tag passes over them: each call block is closed
by a tag of its own, so that only call tags without a body are left open.
-/

namespace Stencil

open Lexeme Stencil.Expr

namespace Piece

@[simp]
theorem row_nil : row [] = [] := rfl

@[simp]
theorem row_cons (piece : Piece) (pieces : List Piece) :
    row (piece :: pieces) = piece.lexemes ++ row pieces := rfl

@[simp]
theorem row_append (first second : List Piece) : row (first ++ second) = row first ++ row second :=
  List.flatMap_append

theorem kind_next_ne_eof (piece : Piece) (rest : List Lexeme) :
    (next (piece.lexemes ++ rest)).kind ≠ .eof := by
  cases piece <;> exact Token.Kind.noConfusion

/-- Whether a piece begins a statement. -/
def isOpening : Piece → Bool
  | tag word _ => builtinTags.contains word && word ≠ "raw"
  | output _ | raw _ => true

end Piece

namespace Stmt

theorem bodyPieces_eq_flatMap (body : List Stmt) : bodyPieces body = body.flatMap pieces := by
  induction body with
  | nil => rfl
  | cons stmt body ih => rw [bodyPieces, ih, List.flatMap_cons]

/-- The pieces of a branch. -/
def elifPieces (branch : Branch Stmt) : List Piece :=
  .tag "elif" branch.condition.lexemes :: bodyPieces branch.body

theorem branchPieces_eq_flatMap (elifs : List (Branch Stmt)) :
    branchPieces elifs = elifs.flatMap elifPieces := by
  induction elifs with
  | nil => rfl
  | cons branch elifs ih => rw [branchPieces, ih, List.flatMap_cons, elifPieces, List.cons_append]

/-! ### Spelling -/

theorem areSpelt_names {names : List String} (free : ∀ name ∈ names, isFreeName name = true) :
    AreSpelt (targetLexemes names) := by
  apply areSpelt_intercalate (.mark (by decide))
  intro piece isPiece
  rcases List.mem_map.1 isPiece with ⟨name, isName, rfl⟩
  exact areSpelt_single (.word (isWord_of_isFreeName (free name isName)))

theorem areSpelt_flagLexemes (flag : Bool) {words : List String}
    (areWords : ∀ word ∈ words, isWord word.toList = true) : AreSpelt (flagLexemes flag words) := by
  cases flag with
  | false => exact areSpelt_nil
  | true =>
      intro lexeme isLexeme
      rcases List.mem_map.1 isLexeme with ⟨word, isMember, rfl⟩
      exact .word (areWords word isMember)

theorem areSpelt_contextLexemes (default withContext : Bool) :
    AreSpelt (contextLexemes default withContext) := by
  cases default <;> cases withContext
  · exact areSpelt_nil
  · exact areSpelt_cons.2 ⟨.word (by decide), areSpelt_single (.word (by decide))⟩
  · exact areSpelt_cons.2 ⟨.word (by decide), areSpelt_single (.word (by decide))⟩
  · exact areSpelt_nil

theorem areSpelt_importLexemes {imported : ImportName} (printable : ImportPrintable imported) :
    AreSpelt (importLexemes imported) := by
  rcases imported with ⟨name, target⟩
  apply areSpelt_cons.2
  refine ⟨.word (isWord_of_isFreeName printable.free), ?_⟩
  cases target with
  | none => exact areSpelt_nil
  | some target =>
      apply areSpelt_cons.2
      refine ⟨.word (by decide), areSpelt_single (.word ?_)⟩
      exact isWord_of_isFreeName (printable.freeTarget target rfl)

theorem areSpelt_signatureLexemes {params : List Parameter}
    (printable : ParametersPrintable params) : AreSpelt (signatureLexemes params) := by
  rw [signatureLexemes, areSpelt_cons, areSpelt_append]
  refine ⟨.mark (by decide), areSpelt_intercalate (.mark (by decide)) ?_,
    areSpelt_single (.mark (by decide))⟩
  intro piece isPiece
  rcases List.mem_map.1 isPiece with ⟨param, isParam, rfl⟩
  rw [parameterLexemes, areSpelt_cons]
  refine ⟨.word (isWord_of_isFreeName (printable.free param isParam)), ?_⟩
  apply areSpelt_optional (areSpelt_single (.mark (by decide)))
  exact fun expr isDefault => (printable.defaults param isParam expr isDefault).areSpelt

theorem areSpelt_callSignatureLexemes {params : List Parameter}
    (printable : ParametersPrintable params) (call : Expr) :
    AreSpelt (callSignatureLexemes params call) := by
  unfold callSignatureLexemes
  split
  · exact areSpelt_nil
  · exact areSpelt_signatureLexemes printable

theorem areSpelt_filterLexemes {filter : FilterCall} (printable : FilterPrintable filter) :
    AreSpelt (filterLexemes filter) := by
  rw [filterLexemes, areSpelt_append, areSpelt_cons, areSpelt_append]
  refine ⟨areSpelt_dotted (isWord_of_isDottedName printable.isName), .mark (by decide), ?_,
    areSpelt_single (.mark (by decide))⟩
  apply areSpelt_arguments _ printable.free
  · exact fun kwarg isKwarg => (printable.eachNamed kwarg isKwarg).areSpelt
  · exact fun arg isArg => (printable.each arg isArg).areSpelt

theorem parametersPrintable_nil : ParametersPrintable [] :=
  ⟨List.nodup_nil, by simp, by simp⟩

section

variable {body : List Stmt} {arguments : List Lexeme} {word : String}

theorem isSpelt_body (each : ∀ stmt ∈ body, ∀ piece ∈ stmt.pieces, piece.IsSpelt) :
    ∀ piece ∈ bodyPieces body, piece.IsSpelt := by
  intro piece isPiece
  rw [bodyPieces_eq_flatMap] at isPiece
  rcases List.mem_flatMap.1 isPiece with ⟨stmt, isStmt, isPiece⟩
  exact each stmt isStmt piece isPiece

theorem isSpelt_elseTag (elseBody : List Stmt) : ∀ piece ∈ elseTag elseBody, piece.IsSpelt := by
  intro piece isPiece
  unfold elseTag at isPiece
  split at isPiece
  · exact absurd isPiece List.not_mem_nil
  · rw [List.mem_singleton.1 isPiece]
    exact .tag (by decide) (by decide) areSpelt_nil

/-- A tag with a body and the tag that closes it. -/
theorem isSpelt_closed {ender : String} (isTag : isBuiltinTag word = true ∧ word ≠ "raw")
    (isEnder : isBuiltinTag ender = true ∧ ender ≠ "raw") (spelt : AreSpelt arguments)
    {inner : List Piece} (each : ∀ piece ∈ inner, piece.IsSpelt) :
    ∀ piece ∈ .tag word arguments :: (inner ++ [.tag ender []]), piece.IsSpelt := by
  rw [List.forall_mem_cons, List.forall_mem_append]
  refine ⟨.tag isTag.1 isTag.2 spelt, each, ?_⟩
  exact List.forall_mem_singleton.2 (.tag isEnder.1 isEnder.2 areSpelt_nil)

theorem isSpelt_tag (isTag : isBuiltinTag word = true ∧ word ≠ "raw")
    (spelt : AreSpelt arguments) : ∀ piece ∈ [Piece.tag word arguments], piece.IsSpelt :=
  List.forall_mem_singleton.2 (.tag isTag.1 isTag.2 spelt)

end

/-- Every piece of a written statement has a written form. -/
theorem Printable.isSpelt {stmt : Stmt} (printable : stmt.Printable) :
    ∀ piece ∈ stmt.pieces, piece.IsSpelt := by
  induction printable with
  | text origin isRaw => exact List.forall_mem_singleton.2 (.raw isRaw)
  | output origin printed =>
      rcases printed.starts.first with ⟨first, rest, _, same, _⟩
      exact List.forall_mem_singleton.2 (.output (by simp [same]) printed.areSpelt)
  | forLoop origin isRecursive nonempty free iterated guarded each eachElse ih ihElse =>
      apply isSpelt_closed (by decide) (by decide)
      · simp only [areSpelt_append, areSpelt_cons, and_assoc]
        exact ⟨areSpelt_names free, .word (by decide), areSpelt_enclose iterated.areSpelt,
          areSpelt_optional (areSpelt_single (.word (by decide)))
            fun expr isFilter => (guarded expr isFilter).areSpelt,
          areSpelt_flagLexemes isRecursive (by decide)⟩
      · simp only [List.forall_mem_append]
        exact ⟨⟨isSpelt_body ih, isSpelt_elseTag _⟩, isSpelt_body ihElse⟩
  | choice origin first each conditions bodies eachElse ih ihBodies ihElse =>
      apply isSpelt_closed (by decide) (by decide) first.areSpelt
      simp only [List.forall_mem_append]
      refine ⟨⟨⟨isSpelt_body ih, ?_⟩, isSpelt_elseTag _⟩, isSpelt_body ihElse⟩
      intro piece isPiece
      rw [branchPieces_eq_flatMap] at isPiece
      rcases List.mem_flatMap.1 isPiece with ⟨branch, isBranch, isPiece⟩
      rcases List.mem_cons.1 isPiece with rfl | isPiece
      · exact .tag (by decide) (by decide) (conditions branch isBranch).areSpelt
      · exact isSpelt_body (ihBodies branch isBranch) piece isPiece
  | assign origin nonempty free assigned =>
      apply isSpelt_tag (by decide)
      rw [areSpelt_append, areSpelt_cons]
      exact ⟨areSpelt_names free, .mark (by decide), assigned.areSpelt⟩
  | capture origin free each ih =>
      exact isSpelt_closed (by decide) (by decide)
        (areSpelt_names (List.forall_mem_singleton.2 free)) (isSpelt_body ih)
  | block origin isScoped isRequired free each ih =>
      refine isSpelt_closed (by decide) (by decide) ?_ (isSpelt_body ih)
      rw [areSpelt_cons, areSpelt_append]
      exact ⟨.word (isWord_of_isFreeName free), areSpelt_flagLexemes isScoped (by decide),
        areSpelt_flagLexemes isRequired (by decide)⟩
  | parent origin extended => exact isSpelt_tag (by decide) extended.areSpelt
  | inclusion origin withContext ignoreMissing included =>
      apply isSpelt_tag (by decide)
      rw [areSpelt_append, areSpelt_append]
      exact ⟨⟨included.areSpelt, areSpelt_flagLexemes ignoreMissing (by decide)⟩,
        areSpelt_contextLexemes true withContext⟩
  | importAs origin withContext imported free =>
      apply isSpelt_tag (by decide)
      simp only [areSpelt_append, areSpelt_cons]
      exact ⟨⟨imported.areSpelt, .word (by decide), .word (isWord_of_isFreeName free),
        areSpelt_nil⟩, areSpelt_contextLexemes false withContext⟩
  | importNames origin withContext imported nonempty eachName =>
      apply isSpelt_tag (by decide)
      rw [areSpelt_append, areSpelt_cons, areSpelt_append]
      refine ⟨imported.areSpelt, .word (by decide), areSpelt_intercalate (.mark (by decide)) ?_,
        areSpelt_contextLexemes false withContext⟩
      exact List.forall_mem_map.2 fun name isName => areSpelt_importLexemes (eachName name isName)
  | macro_ origin free parameters each varargs kwargs ih =>
      refine isSpelt_closed (by decide) (by decide) ?_ (isSpelt_body ih)
      rw [areSpelt_cons]
      exact ⟨.word (isWord_of_isFreeName free), areSpelt_signatureLexemes parameters⟩
  | bareCall origin called isCall =>
      apply isSpelt_tag (by decide)
      rw [areSpelt_append]
      exact ⟨areSpelt_callSignatureLexemes parametersPrintable_nil _, called.areSpelt⟩
  | callBlock origin called isCall parameters each noBareCall ih =>
      refine isSpelt_closed (by decide) (by decide) ?_ (isSpelt_body ih)
      rw [areSpelt_append]
      exact ⟨areSpelt_callSignatureLexemes parameters _, called.areSpelt⟩
  | scope origin free assigned each ih =>
      refine isSpelt_closed (by decide) (by decide) ?_ (isSpelt_body ih)
      exact @areSpelt_arguments [] _ (by simp) free
        fun assignment isAssignment => (assigned assignment isAssignment).areSpelt
  | filtered origin nonempty eachFilter each ih =>
      refine isSpelt_closed (by decide) (by decide) ?_ (isSpelt_body ih)
      apply areSpelt_intercalate (.mark (by decide))
      exact List.forall_mem_map.2 fun filter isFilter =>
        areSpelt_filterLexemes (eachFilter filter isFilter)
  | autoescape origin switch each ih =>
      exact isSpelt_closed (by decide) (by decide) switch.areSpelt (isSpelt_body ih)
  | evaluate origin evaluated => exact isSpelt_tag (by decide) evaluated.areSpelt
  | debug | continue_ | break_ => exact isSpelt_tag (by decide) areSpelt_nil

/-- The first piece of a written statement opens a statement. -/
theorem Printable.isOpening {stmt : Stmt} (printable : stmt.Printable) :
    ∃ piece others, stmt.pieces = piece :: others ∧ piece.isOpening = true := by
  cases printable <;> exact ⟨_, _, rfl, rfl⟩

/-! ### Looking ahead for `endcall` tags -/

/-- Whether an `endcall` tag closes the call tag before the tokens ahead, given the number of call
tags open between them. -/
def endcallAhead (calls : Nat) : List Lexeme → Bool
  | [] => false
  | lexeme :: rest =>
    if lexeme.kind = .eof then false
    else if lexeme.kind = .blockBegin ∧ (next rest).word? = some "call" then
      endcallAhead (calls + 1) rest
    else if lexeme.kind = .blockBegin ∧ (next rest).word? = some "endcall" then
      calls = 0 || endcallAhead (calls - 1) rest
    else endcallAhead calls rest

theorem endcallFollows_eq (calls : Nat) (tokens : List Token) :
    endcallFollows calls tokens = endcallAhead calls (tokens.map Token.lexeme) := by
  induction tokens generalizing calls with
  | nil => rfl
  | cons token rest ih =>
      have sameWord (word : String) : (rest.head?.any (·.isWord word)) = true ↔
          (next (rest.map Token.lexeme)).word? = some word := by
        cases rest with
        | nil => simp [next, ending, Lexeme.word?]
        | cons second rest => exact Reading.isWord_iff rfl
      simp only [endcallFollows, List.map_cons, endcallAhead, Token.kind_lexeme, sameWord, ih]
      congr

theorem isInner_of_isSpelt {lexeme : Lexeme} (spelt : lexeme.IsSpelt) :
    lexeme.kind.isInner = true := by
  cases spelt with
  | @mark spelling isMark =>
      have inner : ∀ spelling ∈ Token.Kind.symbols.map Prod.fst,
          (Lexeme.symbol spelling).kind.isInner = true := by
        decide
      exact inner spelling isMark
  | word =>
      unfold Lexeme.word Lexer.wordKind
      dsimp only
      repeat' split
      all_goals rfl
  | string | integer => rfl

section

variable {calls : Nat} {lexeme : Lexeme} {lexemes rest : List Lexeme}

/-- Tokens that neither open a block tag nor end the template are passed over. -/
theorem endcallAhead_cons (notEnd : lexeme.kind ≠ .eof) (notTag : lexeme.kind ≠ .blockBegin) :
    endcallAhead calls (lexeme :: rest) = endcallAhead calls rest := by
  simp [endcallAhead, notEnd, notTag]

theorem endcallAhead_append (spelt : AreSpelt lexemes) :
    endcallAhead calls (lexemes ++ rest) = endcallAhead calls rest := by
  induction lexemes with
  | nil => rfl
  | cons lexeme lexemes ih =>
      rw [areSpelt_cons] at spelt
      have inner := isInner_of_isSpelt spelt.1
      rw [List.cons_append, endcallAhead_cons, ih spelt.2]
      · exact Token.Kind.ne_eof_of_isInner inner
      · intro isTag
        simp [isTag, Token.Kind.isInner] at inner

/-- What stands in a block tag after its first token is passed over. -/
theorem endcallAhead_inner {word : String} {arguments : List Lexeme}
    (spelt : (Piece.tag word arguments).IsSpelt) :
    endcallAhead calls (.word word :: (arguments ++ .blockEnd :: rest)) =
      endcallAhead calls rest := by
  cases spelt with
  | tag isTag notRaw spelt =>
      rcases Lexer.exists_cons_of_isBuiltinTag isTag notRaw with ⟨isWord, _⟩
      have areSpelt : AreSpelt (.word word :: arguments) := areSpelt_cons.2 ⟨.word isWord, spelt⟩
      rw [← List.cons_append, endcallAhead_append areSpelt, endcallAhead_cons]
      · decide
      · decide

end

/-- The look ahead passes over some pieces and takes a number of call tags in them for open. -/
def OpensCalls (count : Nat) (pieces : List Piece) : Prop :=
  ∀ calls rest, endcallAhead calls (Piece.row pieces ++ rest) = endcallAhead (calls + count) rest

/-- Some call tags in a row of pieces are taken for open, but none under a condition. -/
def CallsCounted (pieces : List Piece) (noneOpen : Prop) : Prop :=
  ∃ count, OpensCalls count pieces ∧ (noneOpen → count = 0)

namespace CallsCounted

variable {pieces first second : List Piece} {noneOpen noneOpen' : Prop} {word : String}
  {arguments : List Lexeme}

theorem nil : CallsCounted [] True :=
  ⟨0, fun _ _ => rfl, fun _ => rfl⟩

theorem mono (counted : CallsCounted pieces noneOpen) (fewer : noneOpen' → noneOpen) :
    CallsCounted pieces noneOpen' := by
  rcases counted with ⟨count, opens, none⟩
  exact ⟨count, opens, fun holds => none (fewer holds)⟩

theorem append (counted : CallsCounted first noneOpen) (later : CallsCounted second noneOpen') :
    CallsCounted (first ++ second) (noneOpen ∧ noneOpen') := by
  rcases counted with ⟨count, opens, none⟩
  rcases later with ⟨count', opens', none'⟩
  refine ⟨count + count', fun calls rest => ?_, fun holds => ?_⟩
  · rw [Piece.row_append, List.append_assoc, opens, opens', Nat.add_assoc]
  · rw [none holds.1, none' holds.2]

theorem row_tag {rest : List Lexeme} : Piece.row [.tag word arguments] ++ rest =
    .blockBegin :: .word word :: (arguments ++ .blockEnd :: rest) := by
  simp [Piece.lexemes]

theorem tag (spelt : (Piece.tag word arguments).IsSpelt)
    (notCall : (Lexeme.word word).word? ≠ some "call")
    (notEndcall : (Lexeme.word word).word? ≠ some "endcall") :
    CallsCounted [.tag word arguments] True := by
  refine ⟨0, fun calls rest => ?_, fun _ => rfl⟩
  rw [row_tag, endcallAhead, if_neg (by decide), next_cons, if_neg (by simp [notCall]),
    if_neg (by simp [notEndcall]), endcallAhead_inner spelt, Nat.add_zero]

theorem output {lexemes : List Lexeme} (spelt : AreSpelt lexemes) :
    CallsCounted [.output lexemes] True := by
  refine ⟨0, fun calls rest => ?_, fun _ => rfl⟩
  simp only [Piece.row_cons, Piece.row_nil, Piece.lexemes, List.append_nil, List.cons_append,
    List.append_assoc, List.nil_append]
  rw [endcallAhead_cons (by decide) (by decide), endcallAhead_append spelt,
    endcallAhead_cons (by decide) (by decide), Nat.add_zero]

theorem raw (content : String) : CallsCounted [.raw content] True := by
  refine ⟨0, fun calls rest => ?_, fun _ => rfl⟩
  simp only [Piece.row_cons, Piece.row_nil, Piece.lexemes, List.append_nil, List.cons_append,
    List.append_assoc, List.nil_append]
  rw [endcallAhead_cons (by decide) (by decide)]
  split
  · exact endcallAhead_cons (by decide) (by decide)
  · rw [List.singleton_append, endcallAhead_cons Token.Kind.noConfusion Token.Kind.noConfusion]
    exact endcallAhead_cons (by decide) (by decide)

/-- A call tag without a body stays open. -/
theorem bareCall (spelt : (Piece.tag "call" arguments).IsSpelt) :
    CallsCounted [.tag "call" arguments] False := by
  refine ⟨1, fun calls rest => ?_, False.elim⟩
  rw [row_tag, endcallAhead, if_neg (by decide), next_cons, if_pos (by decide),
    endcallAhead_inner spelt]

/-- A call block is closed by its own tag. -/
theorem callBlock (spelt : (Piece.tag "call" arguments).IsSpelt)
    (counted : CallsCounted pieces noneOpen) :
    CallsCounted (.tag "call" arguments :: (pieces ++ [.tag "endcall" []])) noneOpen := by
  rcases counted with ⟨count, opens, none⟩
  refine ⟨count, fun calls rest => ?_, none⟩
  have endSpelt : (Piece.tag "endcall" []).IsSpelt := .tag (by decide) (by decide) areSpelt_nil
  have closes (calls : Nat) : endcallAhead (calls + 1) (Piece.row [.tag "endcall" []] ++ rest) =
      endcallAhead calls rest := by
    rw [row_tag, endcallAhead, if_neg (by decide), next_cons, if_neg (by decide),
      if_pos (by decide), endcallAhead_inner endSpelt, Nat.add_sub_cancel]
    simp
  rw [← List.singleton_append, Piece.row_append, Piece.row_append, List.append_assoc,
    List.append_assoc, row_tag, endcallAhead, if_neg (by decide), next_cons, if_pos (by decide),
    endcallAhead_inner spelt, opens, Nat.add_right_comm, closes]

/-- Where no `endcall` tag is ahead, none is ahead of pieces that come before. -/
theorem endcallAhead_eq_false {rest : List Lexeme} (counted : CallsCounted pieces noneOpen)
    (ends : ∀ calls, endcallAhead calls rest = false) (calls : Nat) :
    endcallAhead calls (Piece.row pieces ++ rest) = false := by
  rcases counted with ⟨count, opens, _⟩
  rw [opens, ends]

end CallsCounted

/-! ### Call tags of statements -/

section

variable {body : List Stmt} (each : ∀ stmt ∈ body, stmt.Printable)
  (ih : ∀ stmt ∈ body, (∀ piece ∈ stmt.pieces, piece.IsSpelt) →
    CallsCounted stmt.pieces (stmt.hasBareCall = false))

include each ih

theorem callsCounted_body :
    CallsCounted (bodyPieces body) (∀ stmt ∈ body, stmt.hasBareCall = false) := by
  induction body with
  | nil => exact CallsCounted.nil.mono fun _ => trivial
  | cons stmt body ihBody =>
      rw [List.forall_mem_cons] at each ih
      have first := ih.1 each.1.isSpelt
      exact (first.append (ihBody each.2 ih.2)).mono List.forall_mem_cons.1

end

theorem callsCounted_branches {elifs : List (Branch Stmt)}
    (conditions : ∀ branch ∈ elifs, branch.condition.Printable)
    (counted : ∀ branch ∈ elifs, CallsCounted (bodyPieces branch.body)
      (∀ stmt ∈ branch.body, stmt.hasBareCall = false)) :
    CallsCounted (branchPieces elifs)
      (∀ branch ∈ elifs, ∀ stmt ∈ branch.body, stmt.hasBareCall = false) := by
  induction elifs with
  | nil => exact CallsCounted.nil.mono fun _ => trivial
  | cons branch elifs ih =>
      rw [List.forall_mem_cons] at conditions counted
      have opens : CallsCounted [.tag "elif" branch.condition.lexemes] True :=
        .tag (.tag (by decide) (by decide) conditions.1.areSpelt) (by decide) (by decide)
      have later := opens.append (counted.1.append (ih conditions.2 counted.2))
      apply later.mono
      rw [List.forall_mem_cons]
      exact fun holds => ⟨trivial, holds⟩

/-- What follows from there being no call tag without a body, for the bodies of a statement. -/
theorem hasBareCall_eq_false {stmt inner : Stmt} {body : List Stmt}
    (noBareCall : stmt.hasBareCall = false) (isBody : body ∈ stmt.bodies) (isInner : inner ∈ body) :
    inner.hasBareCall = false := by
  rw [hasBareCall_eq, Bool.or_eq_false_iff, List.any_eq_false] at noBareCall
  have noneInBody := noBareCall.2 body isBody
  rw [Bool.not_eq_true, List.any_eq_false] at noneInBody
  exact Bool.eq_false_iff.2 (noneInBody inner isInner)

theorem callsCounted_elseTag (elseBody : List Stmt) : CallsCounted (elseTag elseBody) True := by
  unfold elseTag
  split
  · exact .nil
  · exact .tag (.tag (by decide) (by decide) areSpelt_nil) (by decide) (by decide)

/-- A tag with pieces after it and the tag that closes it. -/
theorem callsCounted_closed {word ender : String} {arguments : List Lexeme} {inner : List Piece}
    {noneOpen : Prop}
    (spelt : ∀ piece ∈ Piece.tag word arguments :: (inner ++ [.tag ender []]), piece.IsSpelt)
    (notCall : (Lexeme.word word).word? ≠ some "call" ∧ (Lexeme.word ender).word? ≠ some "call")
    (notEndcall : (Lexeme.word word).word? ≠ some "endcall" ∧
      (Lexeme.word ender).word? ≠ some "endcall") (counted : CallsCounted inner noneOpen) :
    CallsCounted (.tag word arguments :: (inner ++ [.tag ender []])) noneOpen := by
  have opens := CallsCounted.tag (spelt _ List.mem_cons_self) notCall.1 notEndcall.1
  have closes := CallsCounted.tag (spelt (.tag ender []) (by simp)) notCall.2 notEndcall.2
  exact (opens.append (counted.append closes)).mono fun holds => ⟨trivial, holds, trivial⟩

theorem callsCounted_tag {word : String} {arguments : List Lexeme} {noneOpen : Prop}
    (spelt : ∀ piece ∈ [Piece.tag word arguments], piece.IsSpelt)
    (notCall : (Lexeme.word word).word? ≠ some "call")
    (notEndcall : (Lexeme.word word).word? ≠ some "endcall") :
    CallsCounted [.tag word arguments] noneOpen :=
  (CallsCounted.tag (spelt _ List.mem_cons_self) notCall notEndcall).mono fun _ => trivial

/-- Only call tags without a body are taken for open. -/
theorem Printable.callsCounted {stmt : Stmt} (printable : stmt.Printable) :
    CallsCounted stmt.pieces (stmt.hasBareCall = false) := by
  have spelt := printable.isSpelt
  induction printable with
  | text origin isRaw => exact (CallsCounted.raw _).mono fun _ => trivial
  | output origin printed => exact (CallsCounted.output printed.areSpelt).mono fun _ => trivial
  | @forLoop origin _ _ _ _ body elseBody _ _ _ _ each eachElse ih ihElse =>
      have counted := ((callsCounted_body each ih).append (callsCounted_elseTag elseBody)).append
        (callsCounted_body eachElse ihElse)
      apply callsCounted_closed spelt (by decide) (by decide) (counted.mono _)
      intro noBareCall
      exact ⟨⟨fun stmt => hasBareCall_eq_false noBareCall (by simp [bodies]), trivial⟩,
        fun stmt => hasBareCall_eq_false noBareCall (by simp [bodies])⟩
  | @choice origin _ body elseBody elifs first each conditions inner eachElse ih ihInner ihElse =>
      have branches := callsCounted_branches conditions fun branch isBranch =>
        callsCounted_body (inner branch isBranch) (ihInner branch isBranch)
      have counted := (((callsCounted_body each ih).append branches).append
        (callsCounted_elseTag elseBody)).append (callsCounted_body eachElse ihElse)
      apply callsCounted_closed spelt (by decide) (by decide) (counted.mono _)
      intro noBareCall
      refine ⟨⟨⟨fun stmt => hasBareCall_eq_false noBareCall (by simp [bodies]), ?_⟩, trivial⟩,
        fun stmt => hasBareCall_eq_false noBareCall (by simp [bodies])⟩
      intro branch isBranch stmt
      refine hasBareCall_eq_false noBareCall ?_
      simp only [bodies, List.mem_cons, List.mem_append, List.mem_map]
      exact Or.inr (Or.inl ⟨branch, isBranch, rfl⟩)
  | capture _ _ each ih | block _ _ _ _ each ih | macro_ _ _ _ each _ _ ih | scope _ _ _ each ih
  | filtered _ _ _ each ih | autoescape _ _ each ih =>
      apply callsCounted_closed spelt (by decide) (by decide) ((callsCounted_body each ih).mono _)
      exact fun noBareCall stmt => hasBareCall_eq_false noBareCall (by simp [bodies])
  | callBlock origin called isCall parameters each noBareCall ih =>
      apply CallsCounted.callBlock (spelt _ List.mem_cons_self)
      exact (callsCounted_body each ih).mono fun _ => noBareCall
  | bareCall origin called isCall =>
      apply (CallsCounted.bareCall (spelt _ List.mem_cons_self)).mono
      intro noBareCall
      simp [hasBareCall_eq, isBareCall] at noBareCall
  | assign | parent | inclusion | importAs | importNames | evaluate | debug | continue_
  | break_ => exact callsCounted_tag spelt (by decide) (by decide)

end Stmt

end Stencil
