import Stencil.Proofs.Parse.Stepwise
import Stencil.Proofs.Parse.Stretch
import Stencil.Proofs.Stmt.Composed
import Stencil.Proofs.Stmt.Stepwise
import Stencil.Proofs.Token.Commented

/-!
# Rules on a stream with more comments

A stream is set beside one that has more comments between its items. Places of both correspond if
the tokens ahead differ by comments only and the same number of constructs is open. A rule mirrors
another one if it succeeds on the side with more comments wherever the other one succeeds, with the
same value, and leads to corresponding places. Inside a tag no comments can have been put in, and
rules composed of looks and steps mirror themselves there.
-/

namespace Stencil

namespace TokenStream

/-- The tokens from a place on. -/
def tokensFrom (stream : TokenStream) (cursor : Nat) : List Token :=
  stream.significant.toList.drop cursor

variable {stream : TokenStream} {cursor : Nat} {token closing : Token}
  {first parts tokens : List Token}

theorem length_tokensFrom (stream : TokenStream) (cursor : Nat) :
    (stream.tokensFrom cursor).length = stream.size - cursor := by
  rw [tokensFrom, List.length_drop, Array.length_toList, size]

theorem of_tokensFrom_eq_cons (ahead : stream.tokensFrom cursor = token :: tokens) :
    cursor < stream.size ∧ stream.get cursor = token ∧
      stream.tokensFrom (cursor + 1) = tokens := by
  have sameLength := stream.length_tokensFrom cursor
  rw [ahead, List.length_cons] at sameLength
  have inside : cursor < stream.size := by omega
  rw [tokensFrom, drop_eq_cons inside] at ahead
  rcases List.cons.inj ahead with ⟨isNext, further⟩
  exact ⟨inside, isNext, further⟩

theorem tokensFrom_add (ahead : stream.tokensFrom cursor = first ++ tokens) :
    stream.tokensFrom (cursor + first.length) = tokens := by
  rw [tokensFrom, ← List.drop_drop, ← tokensFrom, ahead, List.drop_left]

/-- A token among known ones, the last of which is `closing`. -/
theorem get_of_parts (ahead : stream.tokensFrom cursor = parts ++ closing :: tokens) {count : Nat}
    (inside : count ≤ parts.length) :
    stream.get (cursor + count) = parts[count]?.getD closing := by
  rw [← List.take_append_drop count parts, List.append_assoc] at ahead
  have further := tokensFrom_add ahead
  rw [List.length_take, Nat.min_eq_left inside] at further
  rcases Nat.lt_or_eq_of_le inside with before | rfl
  · rw [List.drop_eq_getElem_cons before] at further
    rw [(of_tokensFrom_eq_cons further).2.1, List.getElem?_eq_getElem before, Option.getD_some]
  · rw [List.drop_length] at further
    rw [(of_tokensFrom_eq_cons further).2.1, List.getElem?_eq_none (Nat.le_refl _),
      Option.getD_none]

theorem size_of_parts (ahead : stream.tokensFrom cursor = parts ++ closing :: tokens) :
    stream.size = cursor + parts.length + 1 + tokens.length := by
  have sameLength := stream.length_tokensFrom cursor
  rw [ahead, List.length_append, List.length_cons] at sameLength
  omega

end TokenStream

/-- Parts of a tag that two streams share, up to the token that ends the tag. -/
def Overlap.ofParts {near far : TokenStream} {start start' : Nat} {closing : Token}
    {parts rest rest' : List Token} (ahead : near.tokensFrom start = parts ++ closing :: rest)
    (ahead' : far.tokensFrom start' = parts ++ closing :: rest')
    (closes : closing.kind.isInner = false) (ends : rest = [] ↔ rest' = [])
    (sourceName : far.sourceName = near.sourceName) : Overlap where
  near := near
  far := far
  start := start
  start' := start'
  length := parts.length
  same count inside := by
    rw [TokenStream.get_of_parts ahead inside, TokenStream.get_of_parts ahead' inside]
  closing := by
    rw [TokenStream.get_of_parts ahead (Nat.le_refl _), List.getElem?_eq_none (Nat.le_refl _)]
    exact closes
  room := by
    have sameSize := TokenStream.size_of_parts ahead
    omega
  room' := by
    have sameSize := TokenStream.size_of_parts ahead'
    omega
  ends := by
    have sameSize := TokenStream.size_of_parts ahead
    have sameSize' := TokenStream.size_of_parts ahead'
    rw [← List.length_eq_zero_iff, ← List.length_eq_zero_iff] at ends
    omega
  sourceName := sourceName

theorem Parsing.lift_bind {α β : Type} (rule : Reading α) (next : α → Reading β) :
    (liftM (rule >>= next) : Parsing β) =
      (liftM rule : Parsing α) >>= fun value => liftM (next value) := by
  funext stream place
  cases outcome : rule stream place.cursor with
  | ok value stop =>
      rw [bind_eq_of_ok (lift_eq_of_ok outcome)]
      change ofReading (rule >>= next) stream place = ofReading (next value) stream _
      simp only [ofReading, bind_eq_of_ok outcome]
  | error error stop =>
      rw [bind_eq_of_error (lift_eq_of_error outcome),
        lift_eq_of_error (bind_eq_of_error outcome)]

/-- A stream, and one that may have more comments. -/
structure Commentary where
  near : TokenStream
  far : TokenStream
  closed : near.IsClosed
  closed' : far.IsClosed
  sourceName : far.sourceName = near.sourceName

namespace Commentary

/-- Two states correspond in a region: equally many constructs are open, and the tokens ahead differ
by comments only. The near one is not before `low`. -/
structure At (pair : Commentary) (region : Region) (low : Nat) (place place' : Place) : Prop where
  depth : place'.depth = place.depth
  later : low ≤ place.cursor
  ahead : Commented region (pair.near.tokensFrom place.cursor)
    (pair.far.tokensFrom place'.cursor)

/-- Two states correspond in a region, with the same next token. -/
structure AtToken (pair : Commentary) (region : Region) (token : Token) (low : Nat)
    (place place' : Place) : Prop where
  depth : place'.depth = place.depth
  later : low ≤ place.cursor
  allowed : region.allows token.kind = true
  ahead : ∃ rest rest', pair.near.tokensFrom place.cursor = token :: rest ∧
    pair.far.tokensFrom place'.cursor = token :: rest' ∧
    Commented (region.after token.kind) rest rest'

/-- Two states correspond where no item is open, or at the end of the template. -/
inductive Between (pair : Commentary) (low : Nat) (place place' : Place) : Prop where
  | items {region : Region} (isBetween : region.isBetween = true)
      (at_ : pair.At region low place place') : Between pair low place place'
  | atEnd {region : Region} {token : Token} (isEnd : token.kind = .eof)
      (atToken : pair.AtToken region token low place place') : Between pair low place place'

/-- Two states correspond where the same item begins, or at the end of the template. -/
def AtItem (pair : Commentary) (low : Nat) (place place' : Place) : Prop :=
  ∃ region token, pair.AtToken region token low place place' ∧
    (region.isBetween = true ∨ token.kind = .eof)

variable {pair : Commentary} {region : Region} {token : Token} {low : Nat} {place place' : Place}

theorem At.mono {lower : Nat} (at_ : pair.At region low place place') (isLower : lower ≤ low) :
    pair.At region lower place place' :=
  ⟨at_.depth, Nat.le_trans isLower at_.later, at_.ahead⟩

theorem Between.mono {lower : Nat} (between : pair.Between low place place')
    (isLower : lower ≤ low) : pair.Between lower place place' := by
  cases between with
  | items isBetween at_ => exact .items isBetween (at_.mono isLower)
  | atEnd isEnd atToken =>
      exact .atEnd isEnd { atToken with later := Nat.le_trans isLower atToken.later }

/-- Where plain text may not come next, it does not, on either side. -/
theorem At.notData (at_ : pair.At region low place place') (forbidden : region.allows .data = false)
    (notEnded : region ≠ .ended) :
    (pair.near.get place.cursor).kind ≠ .data ∧ (pair.far.get place'.cursor).kind ≠ .data := by
  rcases at_.ahead.exists_comments (at_.ahead.ne_nil notEnded) with
    ⟨comments, token, near, far, each, isNear, isFar, allowed, _⟩
  have notData : token.kind ≠ .data := by
    intro isData
    rw [isData, forbidden] at allowed
    cases allowed
  constructor
  · rw [(TokenStream.of_tokensFrom_eq_cons isNear).2.1]
    exact notData
  · cases comments with
    | nil =>
        rw [(TokenStream.of_tokensFrom_eq_cons isFar).2.1]
        exact notData
    | cons comment comments =>
        rcases (each comment (by simp)).exists_cons with ⟨first, rest, rfl, isKind⟩
        rw [(TokenStream.of_tokensFrom_eq_cons isFar).2.1]
        rcases isKind with isKind | isKind <;> simp [isKind]

/-- Where an item is open, both sides have the same next token. -/
theorem At.exists_token (at_ : pair.At region low place place') (isOpen : region.isBetween = false)
    (notEnded : region ≠ .ended) : ∃ token, pair.AtToken region token low place place' := by
  rcases at_.ahead.exists_cons isOpen notEnded with
    ⟨token, rest, rest', near, far, allowed, further⟩
  exact ⟨token, at_.depth, at_.later, allowed, rest, rest', near, far, further⟩

/-- Both sides may pass parts of a tag. -/
theorem At.ahead_of_parts {closing : Token} {parts rest rest' : List Token} {count : Nat}
    (at_ : pair.At region low place place')
    (near : pair.near.tokensFrom place.cursor = parts ++ closing :: rest)
    (far : pair.far.tokensFrom place'.cursor = parts ++ closing :: rest')
    (inTag : region.isTag = true) (inner : ∀ part ∈ parts, part.kind.isInner = true)
    (inside : count ≤ parts.length) :
    Commented region (pair.near.tokensFrom (place.cursor + count))
      (pair.far.tokensFrom (place'.cursor + count)) := by
  have ahead := at_.ahead
  have isCount : (parts.take count).length = count := by rw [List.length_take, min_eq_left inside]
  rw [near, far] at ahead
  rw [← List.take_append_drop count parts, List.append_assoc] at near far
  rw [← List.take_append_drop count parts, List.append_assoc, List.append_assoc] at ahead
  have near := TokenStream.tokensFrom_add near
  have far := TokenStream.tokensFrom_add far
  rw [isCount] at near far
  rw [near, far]
  exact ahead.drop_parts inTag fun part member => inner part (List.mem_of_mem_take member)

theorem At.entered [Limits] (at_ : pair.At region low place place') (construct : String) :
    pair.At region low (place.entered construct) (place'.entered construct) :=
  ⟨congrArg (· + 1) at_.depth, at_.later, at_.ahead⟩

namespace AtToken

theorem entered [Limits] (atToken : pair.AtToken region token low place place')
    (construct : String) :
    pair.AtToken region token low (place.entered construct) (place'.entered construct) :=
  ⟨congrArg (· + 1) atToken.depth, atToken.later, atToken.allowed, atToken.ahead⟩

theorem at_ (atToken : pair.AtToken region token low place place') :
    pair.At region low place place' := by
  rcases atToken.ahead with ⟨rest, rest', near, far, further⟩
  refine ⟨atToken.depth, atToken.later, ?_⟩
  rw [near, far]
  exact .token atToken.allowed further

theorem get_near (atToken : pair.AtToken region token low place place') :
    pair.near.get place.cursor = token := by
  rcases atToken.ahead with ⟨rest, rest', near, far, further⟩
  exact (TokenStream.of_tokensFrom_eq_cons near).2.1

theorem get_far (atToken : pair.AtToken region token low place place') :
    pair.far.get place'.cursor = token := by
  rcases atToken.ahead with ⟨rest, rest', near, far, further⟩
  exact (TokenStream.of_tokensFrom_eq_cons far).2.1

/-- The token after the one that opens a block tag is the same on both sides. -/
theorem get_word (atToken : pair.AtToken region token low place place')
    (isTag : token.kind = .blockBegin) :
    pair.far.get (place'.cursor + 1) = pair.near.get (place.cursor + 1) := by
  rcases atToken.ahead with ⟨rest, rest', near, far, further⟩
  rw [isTag] at further
  rcases further.exists_cons rfl (by simp [Region.after]) with ⟨word, _, _, rfl, rfl, _, _⟩
  rw [(TokenStream.of_tokensFrom_eq_cons (TokenStream.of_tokensFrom_eq_cons near).2.2).2.1,
    (TokenStream.of_tokensFrom_eq_cons (TokenStream.of_tokensFrom_eq_cons far).2.2).2.1]

/-- Both sides get over a token to corresponding places. -/
theorem next (atToken : pair.AtToken region token low place place')
    (notEnd : token.kind ≠ .eof) :
    pair.At (region.after token.kind) (place.cursor + 1)
      { place with cursor := pair.near.next place.cursor }
      { place' with cursor := pair.far.next place'.cursor } := by
  rw [pair.closed.next_eq (atToken.get_near ▸ notEnd),
    pair.closed'.next_eq (atToken.get_far ▸ notEnd)]
  rcases atToken.ahead with ⟨rest, rest', near, far, further⟩
  refine ⟨atToken.depth, Nat.le_refl _, ?_⟩
  rw [(TokenStream.of_tokensFrom_eq_cons near).2.2, (TokenStream.of_tokensFrom_eq_cons far).2.2]
  exact further

end AtToken

/-- Comments that stand on the far side only are skipped up to the item that is next on both
sides. -/
theorem Between.exists_item (between : pair.Between low place place') :
    ∃ (comments : List (List Token)) (rest : List Token),
      (∀ comment ∈ comments, IsComment comment) ∧
      pair.far.tokensFrom place'.cursor = comments.flatten ++ rest ∧
      pair.AtItem low place
        { place' with cursor := place'.cursor + comments.flatten.length } := by
  cases between with
  | @items region isBetween at_ =>
      have notEnded : region ≠ .ended := by
        rintro rfl
        cases isBetween
      rcases at_.ahead.exists_comments (at_.ahead.ne_nil notEnded) with
        ⟨comments, token, near, far, each, isNear, isFar, allowed, rest⟩
      refine ⟨comments, _, each, isFar, region, token, ⟨at_.depth, at_.later, allowed, ?_⟩, ?_⟩
      · exact ⟨near, far, isNear, TokenStream.tokensFrom_add isFar, rest⟩
      · exact Or.inl isBetween
  | @atEnd region token isEnd atToken =>
      exact ⟨[], _, by simp, rfl, region, token, atToken, Or.inr isEnd⟩

/-- A rule that succeeds on the near side succeeds on the far side with the same value, and comes
from corresponding states to corresponding ones. -/
def Mirrors (pair : Commentary) {α : Type} (before after : Place → Place → Prop)
    (rule : Parsing α) : Prop :=
  ∀ place place', before place place' → ∀ value next,
    rule pair.near place = .ok value next →
      ∃ next', rule pair.far place' = .ok value next' ∧ after next next'

namespace Mirrors

open Parsing Reading

variable {α β : Type} {before middle after : Place → Place → Prop} {rule : Parsing α}

theorem pure (value : α) : pair.Mirrors before before (pure value) := by
  rintro place place' corresponds _ _ outcome
  cases outcome
  exact ⟨place', rfl, corresponds⟩

theorem throw (error : SyntaxError) : pair.Mirrors before after (throw error : Parsing α) := by
  intro _ _ _ _ _ outcome
  cases outcome

theorem refuse (token : Token) (expected : String) :
    pair.Mirrors before after (liftM (Reading.refuse token expected : Reading α) : Parsing α) :=
  .throw _

theorem bind {next : α → Parsing β} (first : pair.Mirrors before middle rule)
    (rest : ∀ value, pair.Mirrors middle after (next value)) :
    pair.Mirrors before after (rule >>= next) := by
  intro place place' corresponds value last outcome
  cases outcome' : rule pair.near place with
  | error error stop =>
      rw [bind_eq_of_error outcome'] at outcome
      cases outcome
  | ok value' stop =>
      rw [bind_eq_of_ok outcome'] at outcome
      rcases first place place' corresponds value' stop outcome' with ⟨stop', far, further⟩
      rw [bind_eq_of_ok far]
      exact rest value' stop stop' further value last outcome

/-- What comes after a failure makes no difference. -/
theorem throw_bind (error : SyntaxError) (next : α → Parsing β) :
    pair.Mirrors before after ((MonadExcept.throw error : Parsing α) >>= next) := by
  intro _ _ _ _ _ outcome
  cases outcome

theorem map {change : α → β} (first : pair.Mirrors before after rule) :
    pair.Mirrors before after (change <$> rule) := by
  rw [← bind_pure_comp]
  exact .bind first fun _ => .pure _

theorem mono {before' after' : Place → Place → Prop} (mirrors : pair.Mirrors before after rule)
    (stronger : ∀ place place', before' place place' → before place place')
    (weaker : ∀ place place', after place place' → after' place place') :
    pair.Mirrors before' after' rule := by
  intro place place' corresponds value next outcome
  rcases mirrors place place' (stronger _ _ corresponds) value next outcome with
    ⟨next', outcome', further⟩
  exact ⟨next', outcome', weaker _ _ further⟩

theorem origin (opening : Token) {next : Origin → Parsing β}
    (rest : ∀ origin, pair.Mirrors before after (next origin)) :
    pair.Mirrors before after (Stmt.originOf opening >>= next) := by
  intro place place' corresponds value last outcome
  have answer (stream : TokenStream) (place : Place) : Stmt.originOf opening stream place =
      .ok ⟨opening.line, stream.sourceName⟩ place := rfl
  rw [bind_eq_of_ok (answer _ _)] at outcome ⊢
  rw [pair.sourceName]
  exact rest _ place place' corresponds value last outcome

/-- Where an item is open, a rule is looked at for each next token. -/
theorem of_token (isOpen : region.isBetween = false) (notEnded : region ≠ .ended)
    (each : ∀ token, pair.Mirrors (pair.AtToken region token low) after rule) :
    pair.Mirrors (pair.At region low) after rule := by
  intro place place' at_
  rcases at_.exists_token isOpen notEnded with ⟨token, atToken⟩
  exact each token place place' atToken

/-- Only tokens that the region allows are looked at. -/
theorem of_allowed
    (each : region.allows token.kind = true →
      pair.Mirrors (pair.AtToken region token low) after rule) :
    pair.Mirrors (pair.AtToken region token low) after rule :=
  fun place place' atToken => each atToken.allowed place place' atToken

theorem of_item (each : ∀ region token, region.isBetween = true ∨ token.kind = .eof →
      pair.Mirrors (pair.AtToken region token low) after rule) :
    pair.Mirrors (pair.AtItem low) after rule := by
  rintro place place' ⟨region, token, atToken, isItem⟩
  exact each region token isItem place place' atToken

theorem at_token (mirrors : pair.Mirrors (pair.At region low) after rule) :
    pair.Mirrors (pair.AtToken region token low) after rule :=
  mirrors.mono (fun _ _ atToken => atToken.at_) fun _ _ further => further

/-- A look at the next token, which is known. -/
theorem current {next : Token → Parsing β}
    (rest : pair.Mirrors (pair.AtToken region token low) after (next token)) :
    pair.Mirrors (pair.AtToken region token low) after (liftM Reading.current >>= next) := by
  intro place place' atToken value last outcome
  rw [bind_eq_of_ok (lift_current_eq _ _)] at outcome ⊢
  rw [atToken.get_near] at outcome
  rw [atToken.get_far]
  exact rest place place' atToken value last outcome

/-- A look at the next token where an item is open. -/
theorem look (isOpen : region.isBetween = false) (notEnded : region ≠ .ended)
    {next : Token → Parsing β}
    (rest : ∀ token, pair.Mirrors (pair.AtToken region token low) after (next token)) :
    pair.Mirrors (pair.At region low) after (liftM Reading.current >>= next) :=
  .of_token isOpen notEnded fun token => .current (rest token)

/-- A step over the next token, which is known. -/
theorem step {high : Nat} (notEnd : token.kind ≠ .eof) (isLower : high ≤ low + 1)
    {next : Token → Parsing β}
    (rest : pair.Mirrors (pair.At (region.after token.kind) high) after (next token)) :
    pair.Mirrors (pair.AtToken region token low) after (liftM Reading.advance >>= next) := by
  intro place place' atToken value last outcome
  rw [bind_eq_of_ok (lift_advance_eq _ _)] at outcome ⊢
  rw [atToken.get_near] at outcome
  rw [atToken.get_far]
  have later := atToken.later
  exact rest _ _ ((atToken.next notEnd).mono (by omega)) value last outcome

/-- A step over the next token, after which it does not matter where both sides are. -/
theorem step_anywhere {next : Token → Parsing β}
    (rest : pair.Mirrors (fun _ _ => True) after (next token)) :
    pair.Mirrors (pair.AtToken region token low) after (liftM Reading.advance >>= next) := by
  intro place place' atToken value last outcome
  rw [bind_eq_of_ok (lift_advance_eq _ _)] at outcome ⊢
  rw [atToken.get_near] at outcome
  rw [atToken.get_far]
  exact rest _ _ trivial value last outcome

/-- A repetition that reads a token with each step that asks for more. -/
theorem loop {step : α → Parsing (ForInStep α)}
    (progresses : Progresses pair.near Place.cursor step)
    (progresses' : Progresses pair.far Place.cursor step)
    (steps : ∀ value, pair.Mirrors before before (step value)) (value : α) :
    pair.Mirrors before before (Parsing.loop step value) := by
  intro place place' corresponds result next outcome
  have repeats := progresses.repeats value place
  unfold Parsing.loop at outcome ⊢
  rw [outcome] at repeats
  generalize isLast : EStateM.Result.ok result next = last at repeats
  clear outcome
  induction repeats generalizing place' with
  | fails => cases isLast
  | done first =>
      cases isLast
      rcases steps _ _ _ corresponds _ _ first with ⟨next', far, further⟩
      exact ⟨next', repeatFrom_eq_of_done far, further⟩
  | more first _ ih =>
      rcases steps _ _ _ corresponds _ _ first with ⟨middle', far, further⟩
      rcases progresses' _ _ _ _ far with ⟨progress, inside⟩
      rw [repeatFrom_eq_of_yield far progress inside]
      exact ih _ further isLast

/-- A token of a given kind, which is next if the rule succeeds. -/
theorem expect_token {kind : Token.Kind} {expected : String} (notEnd : kind ≠ .eof) {high : Nat}
    (isLower : high ≤ low + 1) :
    pair.Mirrors (pair.AtToken region token low) (pair.At (region.after kind) high)
      (liftM (Reading.expect kind expected)) := by
  intro place place' atToken value next outcome
  by_cases isKind : token.kind = kind
  · have near := expect_eq_of_kind ((congrArg Token.kind atToken.get_near).trans isKind) expected
    have far := expect_eq_of_kind ((congrArg Token.kind atToken.get_far).trans isKind) expected
    rw [lift_eq_of_ok near, atToken.get_near] at outcome
    cases outcome
    rw [lift_eq_of_ok far, atToken.get_far]
    have later := atToken.later
    subst isKind
    exact ⟨_, rfl, (atToken.next notEnd).mono (by omega)⟩
  · have near := expect_eq_of_ne (fun isNext => isKind (atToken.get_near ▸ isNext)) expected
    rw [lift_eq_of_error near] at outcome
    cases outcome

theorem expect {kind : Token.Kind} {expected : String} (isOpen : region.isBetween = false)
    (notEnded : region ≠ .ended) (notEnd : kind ≠ .eof) :
    pair.Mirrors (pair.At region low) (pair.At (region.after kind) low)
      (liftM (Reading.expect kind expected)) :=
  .of_token isOpen notEnded fun _ => .expect_token notEnd (Nat.le_succ low)

theorem blockEnd :
    pair.Mirrors (pair.At .block low) (pair.At .text low) (liftM Reading.expectBlockEnd) :=
  .expect rfl (by simp) (by simp)

/-- The next token is skipped if it is of a given kind. -/
theorem skipIf {kind : Token.Kind} (notEnd : kind ≠ .eof) {next : Bool → Parsing β}
    (skipped : token.kind = kind →
      pair.Mirrors (pair.At (region.after kind) low) after (next true))
    (stays : token.kind ≠ kind →
      pair.Mirrors (pair.AtToken region token low) after (next false)) :
    pair.Mirrors (pair.AtToken region token low) after
      (liftM (Reading.skipIf kind) >>= next) := by
  intro place place' atToken value last outcome
  by_cases isKind : token.kind = kind
  · have near := skipIf_eq_of_kind ((congrArg Token.kind atToken.get_near).trans isKind)
    have far := skipIf_eq_of_kind ((congrArg Token.kind atToken.get_far).trans isKind)
    rw [bind_eq_of_ok (lift_eq_of_ok near)] at outcome
    rw [bind_eq_of_ok (lift_eq_of_ok far)]
    subst isKind
    have later := atToken.later
    exact skipped rfl _ _ ((atToken.next notEnd).mono (by omega)) value last outcome
  · have near := skipIf_eq_of_ne fun isNext => isKind (atToken.get_near ▸ isNext)
    have far := skipIf_eq_of_ne fun isNext => isKind (atToken.get_far ▸ isNext)
    rw [bind_eq_of_ok (lift_eq_of_ok near)] at outcome
    rw [bind_eq_of_ok (lift_eq_of_ok far)]
    exact stays isKind place place' atToken value last outcome

/-- A rule for a part of a tag, composed of looks and steps. -/
theorem part {least : Nat} {rule : Reading α} (inTag : region.isTag = true)
    (stepwise : Stepwise rule) (reads : ∀ start, Reads pair.near least start rule) :
    pair.Mirrors (pair.At region low) (pair.At region low) (liftM rule : Parsing α) := by
  intro place place' at_ value next outcome
  rcases at_.ahead.exists_parts inTag with
    ⟨parts, closing, rest, rest', inner, closes, near, far, further⟩
  change ofReading rule pair.near place = _ at outcome
  cases found : rule pair.near place.cursor with
  | error error stop => simp [ofReading, found] at outcome
  | ok value' stop =>
      simp only [ofReading, found, EStateM.Result.ok.injEq] at outcome
      rcases outcome with ⟨rfl, rfl⟩
      have passed := reads place.cursor
      rw [Reads, found] at passed
      -- The rule has read parts of the tag only, and the token that ends the tag is none.
      have inside : stop ≤ place.cursor + parts.length := by
        by_contra beyond
        have isInner := passed.1.inner (place.cursor + parts.length) (by omega) (by omega)
        rw [TokenStream.get_of_parts near (Nat.le_refl _),
          List.getElem?_eq_none (Nat.le_refl _), Option.getD_none, closes] at isInner
        cases isInner
      let overlap := Overlap.ofParts near far closes further.eq_nil_iff pair.sourceName
      have copies : overlap.Copies rule := stepwise.copies
      rcases copies 0 value' stop (Nat.zero_le _) found inside with ⟨count, isStop, _, found'⟩
      have isStop : stop = place.cursor + count := isStop
      have found' : rule pair.far place'.cursor = .ok value' (place'.cursor + count) := found'
      subst isStop
      refine ⟨{ place' with cursor := place'.cursor + count }, lift_eq_of_ok found', at_.depth,
        ?_, ?_⟩
      · exact Nat.le_add_right_of_le at_.later
      · exact at_.ahead_of_parts near far inTag inner (by omega)

/-- A rule over tokens that is used with the levels of nesting that are left. -/
theorem leveled [Limits] {least : Nat} {rule : Nat → Reading α} (inTag : region.isTag = true)
    (stepwise : ∀ levels, Stepwise (rule levels))
    (reads : ∀ levels start, Reads pair.near least start (rule levels)) :
    pair.Mirrors (pair.At region low) (pair.At region low) (Parsing.leveled rule) := by
  intro place place' at_ value next outcome
  have sameLevels : place'.levels = place.levels := by rw [Place.levels, at_.depth, Place.levels]
  unfold Parsing.leveled at outcome ⊢
  rw [sameLevels]
  exact part inTag (stepwise place.levels) (reads place.levels) place place' at_ value next outcome

/-- A reserved word of a block tag. -/
theorem keyword (word : Keyword) (expected : String) :
    pair.Mirrors (pair.At .block low) (pair.At .block low)
      (liftM (Reading.expect (.keyword word) expected)) :=
  .part rfl (.expect _ _) fun _ => expect_reads pair.closed rfl _

theorem expectWord (word : String) :
    pair.Mirrors (pair.At .block low) (pair.At .block low) (liftM (Reading.expectWord word)) :=
  .part rfl (.expectWord _) fun _ => expectWord_reads pair.closed _

theorem skipWord (word : String) :
    pair.Mirrors (pair.At .block low) (pair.At .block low) (liftM (Reading.skipWord word)) :=
  .part rfl (.skipWord _) fun _ => skipWord_reads pair.closed _

theorem mark {kind : Token.Kind} (inner : kind.isInner = true) :
    pair.Mirrors (pair.At .block low) (pair.At .block low) (liftM (Reading.skipIf kind)) :=
  .part rfl (.skipIf _) fun _ => skipIf_reads pair.closed inner

theorem identifier :
    pair.Mirrors (pair.At .block low) (pair.At .block low) (liftM Reading.identifier) :=
  .part rfl .identifier fun _ => identifier_reads pair.closed

theorem contextModifier (default : Bool) :
    pair.Mirrors (pair.At .block low) (pair.At .block low)
      (liftM (Stmt.contextModifier default)) :=
  .part rfl (Stmt.contextModifier_stepwise _) fun _ => Stmt.contextModifier_reads pair.closed _

variable [Limits]

theorem expression (inTag : region.isTag = true) :
    pair.Mirrors (pair.At region low) (pair.At region low) Parsing.expression :=
  .leveled inTag Expr.parse_stepwise fun levels _ => Expr.parse_reads pair.closed levels

theorem unconditional (inTag : region.isTag = true) :
    pair.Mirrors (pair.At region low) (pair.At region low) Parsing.unconditional :=
  .leveled inTag Expr.parseUnconditional_stepwise fun levels _ =>
    Expr.parseUnconditional_reads pair.closed levels

theorem withDeeper {least : Nat} {rule : Expr.Deeper → Reading α} (inTag : region.isTag = true)
    (stepwise : ∀ {deeper : Expr.Deeper}, deeper.Stepwise → Stepwise (rule deeper))
    (reads : ∀ {deeper : Expr.Deeper}, deeper.Inside pair.near → ∀ start,
      Reads pair.near least start (rule deeper)) :
    pair.Mirrors (pair.At region low) (pair.At region low) (Parsing.withDeeper rule) :=
  .leveled inTag (fun levels => stepwise (Expr.deeper_stepwise levels)) fun levels =>
    reads (Expr.deeper_inside pair.closed levels)

/-- Both sides enter and leave a construct. -/
theorem nested {construct : String}
    (enters : ∀ place place', before place place' → place'.depth = place.depth ∧
      before (place.entered construct) (place'.entered construct))
    (inside : pair.Mirrors before (pair.At region low) rule) :
    pair.Mirrors before (pair.At region low) (Parsing.nested construct rule) := by
  intro place place' corresponds value next outcome
  rcases enters place place' corresponds with ⟨sameDepth, entered⟩
  by_cases full : maxDepth ≤ place.depth
  · rw [nested_eq_of_full full] at outcome
    cases outcome
  · have room : place.depth < maxDepth := by omega
    have room' : place'.depth < maxDepth := sameDepth ▸ room
    cases found : rule pair.near (place.entered construct) with
    | error error after =>
        rw [nested_eq_of_error room found] at outcome
        cases outcome
    | ok value' after =>
        rw [nested_eq_of_ok room found] at outcome
        cases outcome
        rcases inside _ _ entered _ after found with ⟨after', found', further⟩
        refine ⟨after'.left, nested_eq_of_ok room' found', ?_⟩
        exact ⟨congrArg (· - 1) further.depth, further.later, further.ahead⟩

end Mirrors

end Commentary

end Stencil
