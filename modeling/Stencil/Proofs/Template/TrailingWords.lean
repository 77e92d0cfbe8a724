import Stencil.Profiles
import Stencil.Proofs.Stmt.TagStops
import Stencil.Proofs.Template.SingleTags

/-!
# Words after an expression

Some tags have words of their own after an expression: `recursive` in a loop, `ignore missing` and
`without context` in an inclusion, `as` with a name in an import. These words are names like any
other. They are not taken for a part of the expression, and the expression is the one that a tag
with nothing after it would have, exactly if it does not end with a test without arguments.
-/

namespace Stencil

open Reading Parsing Lexeme

namespace Stmt

variable {stream : TokenStream}

/-- An empty body is read back as an empty body. -/
theorem eq_nil_of_forgetBody {body : List Stmt} (same : forgetBody body = forgetBody []) :
    body = [] := by
  cases body with
  | nil => rfl
  | cons stmt body => cases same

variable [Limits]

/-- A recursive loop over a name, with a filter and without a body, is read off if its filter is. -/
theorem forRule_parsesOff_recursive {word : List Lexeme} {isExpr : Expr → Prop}
    (reads : ∀ {rest : List Lexeme}, (Lexeme.next rest).kind = .name →
      ParsesOff stream 1 1 0 (word ++ rest) rest expression isExpr)
    {target iter : String} (freeTarget : Expr.isFreeName target = true)
    (freeIter : Expr.isFreeName iter = true) (statement : Parsing (Option Stmt))
    (opening : Token) :
    ParsesOff stream 1 1 1 (.word "for" ::
      (.word target :: .word "in" :: .word iter :: .word "if" :: (word ++ [.word "recursive"]) ++
        .blockEnd :: Piece.row [.tag "endfor" []])) []
      (forRule statement opening) fun stmt => ∃ origin iterOrigin filter, isExpr filter ∧
        stmt = .forLoop origin [target] (.name iterOrigin iter) (some filter) true [] [] := by
  have printable : (Expr.name ⟨0, none⟩ iter).Printable := .name _ freeIter
  have nonempty : [target] ≠ [] := List.cons_ne_nil target []
  have free : ∀ name ∈ [target], Expr.isFreeName name = true := by simpa using freeTarget
  have filtered (ahead : List Lexeme) : ParsesOff stream 1 1 0
      (word ++ (flagLexemes true ["recursive"] ++ .blockEnd :: ahead))
      (flagLexemes true ["recursive"] ++ .blockEnd :: ahead)
      (if true then some <$> expression else pure none)
      fun filter => ∃ expr, filter = some expr ∧ isExpr expr :=
    (reads rfl).map fun expr found => ⟨expr, rfl, found⟩
  have nothing : BodyReads statement stream 1 [] := ⟨by simp, by simp⟩
  have sameWords (ahead : List Lexeme) : word ++ [.word "recursive"] ++ .blockEnd :: ahead =
      word ++ ([.word "recursive"] ++ .blockEnd :: ahead) :=
    List.append_assoc _ _ _
  simp only [List.cons_append, sameWords]
  apply (forRule_parsesOff_words true nonempty free printable (by simp) filtered nothing nothing
    (Or.inl (by simp)) (Or.inl (by simp))).mono
  rintro _ ⟨origin, foundIter, _, found, foundElse, rfl, agrees, ⟨filter, rfl, isFound⟩, same,
    sameElse⟩
  rw [eq_nil_of_forgetBody same, eq_nil_of_forgetBody sameElse]
  cases foundIter with
  | name iterOrigin id =>
      injection agrees with _ sameName
      subst sameName
      exact ⟨origin, iterOrigin, filter, isFound, rfl⟩
  | _ => cases agrees

end Stmt

/-- An expression that was read up to the end of a tag is read off up to a name, unless it ends with
a test without arguments. -/
theorem expression_parsesOff_before_name [Limits] {near far : TokenStream}
    {word nearRest farRest : List Lexeme} {low depth start stop : Nat} {expr : Expr}
    (sameName : far.sourceName = near.sourceName) (noTest : Expr.endsInTest word = false)
    (isAhead : near.Ahead start (word ++ nearRest))
    (ends : (Lexeme.next nearRest).kind = .blockEnd)
    (parsed : Expr.parse (maxDepth - depth) near start = .ok expr stop)
    (isRest : near.Ahead stop nearRest) (goesOn : (Lexeme.next farRest).kind = .name) :
    ParsesOff far low depth 0 (word ++ farRest) farRest expression
      fun found => found.forgetLines = expr.forgetLines := by
  rintro place ⟨⟨isAhead', later⟩, rfl⟩
  rcases Expr.parse_before_name sameName noTest isAhead ends parsed isRest isAhead' goesOn with
    ⟨found, stop', parsed', isRest', same⟩
  have outcome : expression far place = .ok found { place with cursor := stop' } :=
    lift_eq_of_ok parsed'
  have sizeAhead := isAhead'.size_eq
  have sizeRest := isRest'.size_eq
  rw [List.length_append] at sizeAhead
  exact .of_ok outcome ⟨Nat.zero_le _, ⟨⟨isRest', show low ≤ stop' by omega⟩, rfl⟩, same⟩

namespace Template

section

variable [Limits] {word : List Lexeme} {tokens : List Token} {isExpr : Expr → Prop}
  (inner : ∀ lexeme ∈ word, lexeme.kind.isInner = true)
  (reads : Expr.endsInTest word = false → ∀ {rest : List Lexeme},
    (Lexeme.next rest).kind = .name →
    ParsesOff (.ofTokens tokens) 1 1 0 (word ++ rest) rest expression isExpr)

include inner reads

theorem exists_inclusion_iff {withContext ignoreMissing : Bool}
    (hasWords : ignoreMissing = true ∨ withContext = false)
    (written : Token.written tokens = Piece.row
      [.tag "include" (word ++ (Stmt.flagLexemes ignoreMissing ["ignore", "missing"] ++
        Stmt.contextLexemes true withContext))]) :
    (∃ origin template, isExpr template ∧
      ParsesTo tokens (.inclusion origin template withContext ignoreMissing)) ↔
        Expr.endsInTest word = false := by
  have isAhead := TokenStream.ahead_ofTokens written (by
    rw [Piece.row, List.flatMap_singleton]
    apply kind_ne_eof_of_mem_tag
    simp only [List.forall_mem_append]
    exact ⟨fun lexeme isPart => Token.Kind.ne_eof_of_isInner (inner lexeme isPart),
      by cases ignoreMissing <;> decide, by cases withContext <;> decide⟩)
  constructor
  · rintro ⟨origin, template, _, parsed⟩
    rcases parsed.exists_derived isAhead.stands.kind with ⟨stop, _, derived, _⟩
    apply derived.endsInTest_of_inclusion inner hasWords
    simpa [Piece.row, Piece.lexemes] using isAhead
  · intro noTest
    have parses (statement : Parsing (Option Stmt)) (opening : Token) :
        ParsesOff (.ofTokens tokens) 1 1 0 (.word "include" ::
          (word ++ (Stmt.flagLexemes ignoreMissing ["ignore", "missing"] ++
            Stmt.contextLexemes true withContext) ++ .blockEnd :: Piece.row [])) []
          (Stmt.inclusionRule opening) fun stmt => ∃ origin template, isExpr template ∧
            stmt = .inclusion origin template withContext ignoreMissing := by
      rw [List.append_assoc, List.append_assoc]
      exact Stmt.inclusionRule_parsesOff_words withContext ignoreMissing
        (reads noTest (Stmt.kind_next_words hasWords _))
    rcases exists_single_of_parsesOff (fun _ => Stmt.inclusionRule) rfl rfl (fun _ => rfl)
      Limits.maxDepth_pos isAhead parses with ⟨_, ⟨origin, template, found, rfl⟩, noErrors, single⟩
    exact ⟨origin, template, found, noErrors, single⟩

theorem exists_import_iff {target : String} (free : Expr.isFreeName target = true)
    (written : Token.written tokens = Piece.row
      [.tag "import" (word ++ [.word "as", .word target])]) :
    (∃ origin template, isExpr template ∧
      ParsesTo tokens (.importAs origin template target false)) ↔
        Expr.endsInTest word = false := by
  have isAhead := TokenStream.ahead_ofTokens written (by
    rw [Piece.row, List.flatMap_singleton]
    apply kind_ne_eof_of_mem_tag
    simp only [List.forall_mem_append, List.forall_mem_cons]
    exact ⟨fun lexeme isPart => Token.Kind.ne_eof_of_isInner (inner lexeme isPart), by decide,
      kind_word_ne_eof target, by simp⟩)
  constructor
  · rintro ⟨origin, template, _, parsed⟩
    rcases parsed.exists_derived isAhead.stands.kind with ⟨stop, _, derived, _⟩
    apply derived.endsInTest_of_import inner
    simpa [Piece.row, Piece.lexemes] using isAhead
  · intro noTest
    have parses (statement : Parsing (Option Stmt)) (opening : Token) :
        ParsesOff (.ofTokens tokens) 1 1 0 (.word "import" ::
          (word ++ [.word "as", .word target] ++ .blockEnd :: Piece.row [])) []
          (Stmt.importRule opening) fun stmt => ∃ origin template, isExpr template ∧
            stmt = .importAs origin template target false := by
      rw [List.append_assoc]
      exact Stmt.importRule_parsesOff_words free false (reads noTest rfl)
    rcases exists_single_of_parsesOff (fun _ => Stmt.importRule) rfl rfl (fun _ => rfl)
      Limits.maxDepth_pos isAhead parses with ⟨_, ⟨origin, template, found, rfl⟩, noErrors, single⟩
    exact ⟨origin, template, found, noErrors, single⟩

theorem exists_recursive_loop_iff (twoLevels : 1 < maxDepth) {target iter : String}
    (freeTarget : Expr.isFreeName target = true) (freeIter : Expr.isFreeName iter = true)
    (written : Token.written tokens = Piece.row
      [.tag "for" (.word target :: .word "in" :: .word iter :: .word "if" ::
        (word ++ [.word "recursive"])), .tag "endfor" []]) :
    (∃ origin iterOrigin filter, isExpr filter ∧ ParsesTo tokens
      (.forLoop origin [target] (.name iterOrigin iter) (some filter) true [] [])) ↔
        Expr.endsInTest word = false := by
  have isAhead := TokenStream.ahead_ofTokens written (by
    rw [Piece.row, List.flatMap_cons, List.flatMap_singleton, List.forall_mem_append]
    refine ⟨kind_ne_eof_of_mem_tag ?_, by decide⟩
    simp only [List.forall_mem_append, List.forall_mem_cons]
    exact ⟨kind_word_ne_eof target, by decide, kind_word_ne_eof iter, by decide,
      fun lexeme isPart => Token.Kind.ne_eof_of_isInner (inner lexeme isPart), by decide, by simp⟩)
  constructor
  · rintro ⟨origin, iterOrigin, filter, _, parsed⟩
    rcases parsed.exists_derived isAhead.stands.kind with ⟨stop, _, derived, _⟩
    apply derived.endsInTest_of_loop inner freeTarget freeIter
    simpa [Piece.row, Piece.lexemes] using isAhead
  · intro noTest
    rcases exists_single_of_parsesOff Stmt.forRule rfl rfl (fun _ => rfl) twoLevels isAhead
      (Stmt.forRule_parsesOff_recursive (reads noTest) freeTarget freeIter) with
      ⟨_, ⟨origin, iterOrigin, filter, found, rfl⟩, noErrors, single⟩
    exact ⟨origin, iterOrigin, filter, found, noErrors, single⟩

end

/-- When words that belong to a tag are not taken for a part of the expression before them. A word
of tokens that is evaluated as an expression, with nothing after it, is the same expression, up to
the lines of its nodes, as the filter of a loop before `recursive`, as the template of an inclusion
before `ignore missing` and before `without context`, and as the template of an import before `as`,
exactly if it does not end with a test without arguments. -/
theorem words_belong_to_tag_iff [Limits] {word : List Lexeme} {tokens : List Token}
    {origin : Origin} {expr : Expr} (noEnd : ∀ lexeme ∈ word, lexeme.kind ≠ .eof)
    (written : Token.written tokens = Piece.row [.tag "do" word])
    (parsed : ParsesTo tokens (.evaluate origin expr)) (others : List Token)
    (sameName : (TokenStream.ofTokens others).sourceName =
      (TokenStream.ofTokens tokens).sourceName) :
    (∀ target iter, Expr.isFreeName target = true → Expr.isFreeName iter = true →
      Token.written others = Piece.row
        [.tag "for" (.word target :: .word "in" :: .word iter :: .word "if" ::
          (word ++ [.word "recursive"])), .tag "endfor" []] →
      ((∃ origin iterOrigin filter, filter.forgetLines = expr.forgetLines ∧ ParsesTo others
          (.forLoop origin [target] (.name iterOrigin iter) (some filter) true [] [])) ↔
        Expr.endsInTest word = false)) ∧
    (Token.written others = Piece.row
        [.tag "include" (word ++ [.word "ignore", .word "missing"])] →
      ((∃ origin template, template.forgetLines = expr.forgetLines ∧
          ParsesTo others (.inclusion origin template true true)) ↔
        Expr.endsInTest word = false)) ∧
    (Token.written others = Piece.row
        [.tag "include" (word ++ [.word "without", .word "context"])] →
      ((∃ origin template, template.forgetLines = expr.forgetLines ∧
          ParsesTo others (.inclusion origin template false false)) ↔
        Expr.endsInTest word = false)) ∧
    (∀ target, Expr.isFreeName target = true →
      Token.written others = Piece.row
        [.tag "import" (word ++ [.word "as", .word target])] →
      ((∃ origin template, template.forgetLines = expr.forgetLines ∧
          ParsesTo others (.importAs origin template target false)) ↔
        Expr.endsInTest word = false)) := by
  have isAhead : (TokenStream.ofTokens tokens).Ahead 0 (Piece.lexemes (.tag "do" word)) := by
    rw [Piece.row, List.flatMap_singleton] at written
    exact TokenStream.ahead_ofTokens written (kind_ne_eof_of_mem_tag noEnd)
  rcases exists_parse_of_evaluate noEnd isAhead parsed with ⟨stop, read, isRest⟩
  have inner := Expr.isInner_of_parse isAhead.tail.tail read isRest
  -- All of these tags are as deep as the one that was evaluated.
  have reads (noTest : Expr.endsInTest word = false) {rest : List Lexeme}
      (goesOn : (Lexeme.next rest).kind = .name) :
      ParsesOff (.ofTokens others) 1 1 0 (word ++ rest) rest expression
        fun found => found.forgetLines = expr.forgetLines :=
    expression_parsesOff_before_name sameName noTest isAhead.tail.tail rfl read isRest goesOn
  refine ⟨?_, ?_, ?_, ?_⟩
  · intro target iter freeTarget freeIter isLoop
    have twoLevels : 1 < maxDepth := Stmt.lt_maxDepth_of_parse read
    exact exists_recursive_loop_iff inner reads twoLevels freeTarget freeIter isLoop
  · intro isInclusion
    exact exists_inclusion_iff inner reads (Or.inl rfl) isInclusion
  · intro isInclusion
    exact exists_inclusion_iff inner reads (Or.inr rfl) isInclusion
  · intro target free isImport
    exact exists_import_iff inner reads free isImport

/-- The tokens of a row of pieces, all of them on one line. -/
def inOneLine (pieces : List Piece) : List Token :=
  Token.layOut none .start ((Piece.row pieces).map fun lexeme => (lexeme.kind, lexeme.text))

set_option maxRecDepth 10000 in
/-- A test with parentheses does not take the word after it for its argument. -/
theorem words_belong_to_tag_iff_test : ∃ word tokens others origin expr,
    (∀ lexeme ∈ word, lexeme.kind ≠ .eof) ∧ Expr.endsInTest word = false ∧
    Token.written tokens = Piece.row [.tag "do" word] ∧
    ParsesTo tokens (.evaluate origin expr) ∧
    Token.written others = Piece.row
      [.tag "include" (word ++ [.word "ignore", .word "missing"])] ∧
    ∃ origin template, template.forgetLines = expr.forgetLines ∧
      ParsesTo others (.inclusion origin template true true) := by
  let word : List Lexeme :=
    [.word "x", .word "is", .word "defined", .symbol "(", .symbol ")"]
  let others := inOneLine [.tag "include" (word ++ [.word "ignore", .word "missing"])]
  have noEnd : ∀ lexeme ∈ word, lexeme.kind ≠ .eof := by decide
  have noTest : Expr.endsInTest word = false := by decide
  have written : Token.written (inOneLine [.tag "do" word]) = Piece.row [.tag "do" word] := by
    decide
  have parsed : ParsesTo (inOneLine [.tag "do" word]) (.evaluate ⟨1, none⟩
      (.test ⟨1, none⟩ (.name ⟨1, none⟩ "x") "defined" [] [] false)) := ⟨by cbv, by cbv⟩
  have isInclusion : Token.written others = Piece.row
      [.tag "include" (word ++ [.word "ignore", .word "missing"])] := by
    decide
  have kept := (words_belong_to_tag_iff noEnd written parsed others (by decide)).2.1 isInclusion
  exact ⟨word, _, others, _, _, noEnd, noTest, written, parsed, isInclusion, kept.2 noTest⟩

set_option maxRecDepth 10000 in
/-- A test without parentheses takes the first word of the tag for its argument, and the inclusion
is dropped for the second word. -/
theorem word_taken_for_argument : ∃ word tokens others origin expr,
    Token.written tokens = Piece.row [.tag "do" word] ∧
    ParsesTo tokens (.evaluate origin expr) ∧
    Token.written others = Piece.row
      [.tag "include" (word ++ [.word "ignore", .word "missing"])] ∧
    (TokenStream.ofTokens others).sourceName = (TokenStream.ofTokens tokens).sourceName ∧
    ∀ stmt, ¬ParsesTo others stmt := by
  let word : List Lexeme := [.word "x", .word "is", .word "defined"]
  let others := inOneLine [.tag "include" (word ++ [.word "ignore", .word "missing"])]
  have written : Token.written (inOneLine [.tag "do" word]) = Piece.row [.tag "do" word] := by
    decide
  have parsed : ParsesTo (inOneLine [.tag "do" word]) (.evaluate ⟨1, none⟩
      (.test ⟨1, none⟩ (.name ⟨1, none⟩ "x") "defined" [] [] false)) := ⟨by cbv, by cbv⟩
  have isInclusion : Token.written others = Piece.row
      [.tag "include" (word ++ [.word "ignore", .word "missing"])] := by
    decide
  have oneError : (parse {} (.ofTokens others)).errors.length = 1 := by decide +kernel
  refine ⟨word, _, others, _, _, written, parsed, isInclusion, by decide, fun stmt isParsed => ?_⟩
  rw [isParsed.noErrors] at oneError
  cases oneError

end Template

end Stencil
