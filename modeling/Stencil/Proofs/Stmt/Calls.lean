import Stencil.Proofs.Parse.Accounting
import Stencil.Proofs.Stmt.Grammar
import Stencil.Proofs.Stmt.Printing

/-!
# Call tags and the tags that close them

A call tag looks for the tag that closes it in all of the template that lies ahead, with a count of
the call tags that are open on the way. What a statement is derived from falls into calm stretches,
call tags without a body, and call blocks, and the properties of call tags follow from that. The
count is the same before a statement and after it, if no call tag in it stands without a body; and
after a statement in which one does, no tag is ahead that would close a further one. So the tag that
closes a call block does not come after such a statement, which is why there is none in the body of
the block.
-/

namespace Stencil

/-- Whether a block tag with a given word begins at a place. -/
def TokenStream.isTag (stream : TokenStream) (word : String) (index : Nat) : Bool :=
  decide ((stream.get index).kind = .blockBegin) && (stream.get (index + 1)).isWord word

namespace Stmt

variable {stream : TokenStream} {depth start middle stop : Nat} {word : String}

/-! ### Calm stretches -/

/-- Neither a call tag nor one that closes a call block begins between two places, and the template
does not end there. -/
structure Calm (stream : TokenStream) (start stop : Nat) : Prop where
  inOrder : start ≤ stop
  notEnd : ∀ index, start ≤ index → index < stop → (stream.get index).kind ≠ .eof
  noCall : ∀ index, start ≤ index → index < stop → stream.isTag "call" index = false
  noEndcall : ∀ index, start ≤ index → index < stop → stream.isTag "endcall" index = false

namespace Calm

theorem refl (stream : TokenStream) (start : Nat) : Calm stream start start := by
  constructor <;> intros <;> omega

theorem trans (first : Calm stream start middle) (second : Calm stream middle stop) :
    Calm stream start stop := by
  have split (index : Nat) : index < middle ∨ middle ≤ index := Nat.lt_or_ge index middle
  constructor
  · exact Nat.le_trans first.inOrder second.inOrder
  · intro index fromStart beforeStop
    rcases split index with inFirst | inSecond
    · exact first.notEnd index fromStart inFirst
    · exact second.notEnd index inSecond beforeStop
  · intro index fromStart beforeStop
    rcases split index with inFirst | inSecond
    · exact first.noCall index fromStart inFirst
    · exact second.noCall index inSecond beforeStop
  · intro index fromStart beforeStop
    rcases split index with inFirst | inSecond
    · exact first.noEndcall index fromStart inFirst
    · exact second.noEndcall index inSecond beforeStop

theorem succ (notEnd : (stream.get start).kind ≠ .eof) (noCall : stream.isTag "call" start = false)
    (noEndcall : stream.isTag "endcall" start = false) : Calm stream start (start + 1) := by
  have only {index : Nat} (fromStart : start ≤ index) (beforeStop : index < start + 1) :
      index = start := by omega
  constructor
  · exact Nat.le_succ start
  · intro index fromStart beforeStop
    rwa [only fromStart beforeStop]
  · intro index fromStart beforeStop
    rwa [only fromStart beforeStop]
  · intro index fromStart beforeStop
    rwa [only fromStart beforeStop]

/-- A token that does not begin a block tag. -/
theorem of_kind {kind : Token.Kind} (isKind : (stream.get start).kind = kind)
    (notTag : kind ≠ .blockBegin) (notEnd : kind ≠ .eof) : Calm stream start (start + 1) := by
  apply succ
  · rwa [isKind]
  · simp [TokenStream.isTag, isKind, notTag]
  · simp [TokenStream.isTag, isKind, notTag]

theorem of_passes (passed : Passes stream start stop) : Calm stream start stop := by
  rcases passed with ⟨inOrder, inner⟩
  induction stop, inOrder using Nat.le_induction with
  | base => exact .refl stream start
  | succ stop inOrder ih =>
      have before := ih fun index fromStart beforeStop => inner index fromStart (by omega)
      have isInner := inner stop inOrder (Nat.lt_succ_self stop)
      refine before.trans (.of_kind rfl ?_ (Token.Kind.ne_eof_of_isInner isInner))
      intro isBlock
      simp [isBlock, Token.Kind.isInner] at isInner

/-- What is the same before and after each token but those that begin a call or an endcall tag is
the same at both ends of a calm stretch. -/
theorem eq_of_succ {β : Type} {value : Nat → β} (calm : Calm stream start stop)
    (succ : ∀ index, (stream.get index).kind ≠ .eof → stream.isTag "call" index = false →
      stream.isTag "endcall" index = false → value index = value (index + 1)) :
    value start = value stop := by
  rcases calm with ⟨inOrder, notEnd, noCall, noEndcall⟩
  induction stop, inOrder using Nat.le_induction with
  | base => rfl
  | succ stop inOrder ih =>
      have last := Nat.lt_succ_self stop
      rw [ih (fun index fromStart beforeStop => notEnd index fromStart (by omega))
          (fun index fromStart beforeStop => noCall index fromStart (by omega))
          (fun index fromStart beforeStop => noEndcall index fromStart (by omega))]
      exact succ stop (notEnd stop inOrder last) (noCall stop inOrder last)
        (noEndcall stop inOrder last)

end Calm

theorem Begins.isTag (begins : Begins stream start word) (other : String) :
    stream.isTag other start = decide (word = other) := by
  simp [TokenStream.isTag, begins.isBlock, Token.isWord, begins.isWord]

/-- What comes after the token that begins a tag, up to the end of the tag. -/
theorem Tag.rest_calm (tag : Tag stream start word stop) : Calm stream (start + 1) (stop + 1) :=
  (Calm.of_passes tag.inside).trans (.of_kind tag.ends (by decide) (by decide))

theorem Tag.calm (tag : Tag stream start word stop) (notCall : word ≠ "call")
    (notEndcall : word ≠ "endcall") : Calm stream start (stop + 1) := by
  have begins := tag.toBegins
  refine Calm.trans (.succ begins.notEnd.1 ?_ ?_) tag.rest_calm
  · simp [begins.isTag, notCall]
  · simp [begins.isTag, notEndcall]

theorem Tag.calm_of_mem (tag : Tag stream start word stop) {enders : List String}
    (isEnder : word ∈ enders) (notCall : "call" ∉ enders) (notEndcall : "endcall" ∉ enders) :
    Calm stream start (stop + 1) := by
  apply tag.calm
  · rintro rfl
    exact notCall isEnder
  · rintro rfl
    exact notEndcall isEnder

section

variable (closed : stream.IsClosed)

include closed

theorem Calm.next {kind : Token.Kind} (isKind : (stream.get start).kind = kind)
    (notTag : kind ≠ .blockBegin) (notEnd : kind ≠ .eof) :
    Calm stream start (stream.next start) := by
  rw [closed.next_eq (by rwa [isKind])]
  exact .of_kind isKind notTag notEnd

/-- Two places with a token skipped between them, if it was there. -/
theorem Calm.of_skipIf {kind : Token.Kind} {skipped : Bool} (notTag : kind ≠ .blockBegin)
    (notEnd : kind ≠ .eof) (outcome : Reading.skipIf kind stream start = .ok skipped stop) :
    Calm stream start stop := by
  by_cases isKind : (stream.get start).kind = kind
  · rw [Reading.skipIf_eq_of_kind isKind] at outcome
    cases outcome
    exact Calm.next closed isKind notTag notEnd
  · rw [Reading.skipIf_eq_of_ne isKind] at outcome
    cases outcome
    exact .refl stream start

theorem Calm.of_plainText {content : String} (reads : plainText stream start = .ok content stop) :
    Calm stream start stop := by
  have meets : Meets (fun _ stop => Calm stream start stop) (fun _ _ => True)
      (plainText stream start) := by
    refine Meets.repeatFrom (fun _ stop => Calm stream start stop) ?_ (.refl stream start)
    intro content middle soFar
    rw [Reading.current_bind]
    split
    · next isData =>
      have further := soFar.trans (Calm.next closed isData (by decide) (by decide))
      exact ⟨further, Or.inr further⟩
    · exact soFar
  rw [reads] at meets
  exact meets

theorem Calm.of_skipComment
    (isComment : (stream.get start).kind = .commentBegin ∨ (stream.get start).kind = .lineComment)
    (reads : skipComment stream start = .ok () stop) : Calm stream start stop := by
  rw [skipComment, Reading.current_bind] at reads
  rcases isComment with isKind | isKind
  · rw [isKind] at reads
    rcases exists_of_bind_eq_ok reads with ⟨token, second, ⟨⟩, reads⟩
    rcases exists_of_bind_eq_ok reads with ⟨hasText, third, skipsText, reads⟩
    rcases exists_of_bind_eq_ok reads with ⟨hasEnd, last, skipsEnd, ⟨⟩⟩
    have first := Calm.next closed isKind (by decide) (by decide)
    have text := Calm.of_skipIf closed (by decide) (by decide) skipsText
    have ending := Calm.of_skipIf closed (by decide) (by decide) skipsEnd
    exact first.trans (text.trans ending)
  · rw [isKind] at reads
    cases reads
    exact Calm.next closed isKind (by decide) (by decide)

end

/-! ### The search for the tag that closes a call block -/

/-- Whether a tag ahead of a place closes a call tag, with a number of further ones to close. -/
def endcallFrom (stream : TokenStream) (calls start : Nat) : Bool :=
  endcallFollows calls (stream.significant.toList.drop start)

/-- As many call tags are opened as are closed between two places. -/
def Balanced (stream : TokenStream) (start stop : Nat) : Prop :=
  ∀ calls, endcallFrom stream calls start = endcallFrom stream calls stop

theorem Balanced.trans (first : Balanced stream start middle)
    (second : Balanced stream middle stop) : Balanced stream start stop :=
  fun calls => (first calls).trans (second calls)

section

variable (closed : stream.IsClosed)

include closed

theorem drop_of_notEnd (notEnd : (stream.get start).kind ≠ .eof) :
    stream.significant.toList.drop start =
      stream.get start :: stream.significant.toList.drop (start + 1) := by
  have inside := closed.lt_size notEnd
  exact TokenStream.drop_eq_cons (by omega)

/-- What a scan sees at a token that is not the last one: the token, and whether a given word
follows it. -/
theorem isTag_eq (notEnd : (stream.get start).kind ≠ .eof) (word : String) :
    (stream.get start).kind = .blockBegin ∧
      ((stream.significant.toList.drop (start + 1)).head?.any (·.isWord word)) = true ↔
    stream.isTag word start = true := by
  have inside := closed.lt_size notEnd
  rw [TokenStream.drop_eq_cons inside]
  simp [TokenStream.isTag]

theorem endcallFrom_eq (notEnd : (stream.get start).kind ≠ .eof) (calls : Nat) :
    endcallFrom stream calls start =
      if stream.isTag "call" start then endcallFrom stream (calls + 1) (start + 1)
      else if stream.isTag "endcall" start then
        calls = 0 || endcallFrom stream (calls - 1) (start + 1)
      else endcallFrom stream calls (start + 1) := by
  rw [endcallFrom, drop_of_notEnd closed notEnd, endcallFollows, if_neg notEnd]
  simp only [isTag_eq closed notEnd, endcallFrom]

theorem Calm.balanced (calm : Calm stream start stop) : Balanced stream start stop := by
  intro calls
  apply calm.eq_of_succ
  intro index notEnd noCall noEndcall
  simp [endcallFrom_eq closed notEnd, noCall, noEndcall]

/-- The tag ahead that closes a call tag is the next one. -/
theorem Begins.endcall (begins : Begins stream start "endcall") :
    endcallFrom stream 0 start = true := by
  simp [endcallFrom_eq closed begins.notEnd.1, begins.isTag]

/-- A call tag is one more to close. -/
theorem Tag.opens (tag : Tag stream start "call" stop) (calls : Nat) :
    endcallFrom stream calls start = endcallFrom stream (calls + 1) (stop + 1) := by
  have begins := tag.toBegins
  simp [endcallFrom_eq closed begins.notEnd.1, begins.isTag, tag.rest_calm.balanced closed _]

theorem Tag.closes (tag : Tag stream start "endcall" stop) (calls : Nat) :
    endcallFrom stream (calls + 1) start = endcallFrom stream calls (stop + 1) := by
  have begins := tag.toBegins
  simp [endcallFrom_eq closed begins.notEnd.1, begins.isTag, tag.rest_calm.balanced closed _]

end

/-! ### Call tags in a part -/

/-- The origin of a call tag, and whether it has a body. -/
def callNode? : Stmt → Option (Origin × Bool)
  | bareCall origin _ => some (origin, false)
  | callBlock origin .. => some (origin, true)
  | _ => none

/-- The call tags in statements, at any depth. -/
def callNodes (stmts : List Stmt) : List (Origin × Bool) :=
  (stmts.flatMap flatten).filterMap callNode?

@[simp]
theorem callNodes_nil : callNodes [] = [] := rfl

@[simp]
theorem callNodes_append (first second : List Stmt) :
    callNodes (first ++ second) = callNodes first ++ callNodes second := by
  simp [callNodes]

theorem callNodes_singleton (stmt : Stmt) :
    callNodes [stmt] = stmt.callNode?.toList ++ stmt.bodies.flatMap callNodes := by
  have unfolded : callNodes = fun stmts => (stmts.flatMap flatten).filterMap callNode? := rfl
  simp only [unfolded, List.flatMap_singleton]
  rw [flatten_eq]
  cases isCall : stmt.callNode? <;> simp [isCall, List.filterMap_flatMap]

theorem any_hasBareCall_eq (stmts : List Stmt) :
    stmts.any hasBareCall = (callNodes stmts).any fun call => !call.2 := by
  rw [callNodes, List.any_filterMap, List.any_flatMap]
  congr 1
  funext stmt
  rw [hasBareCall]
  congr 1
  funext part
  cases part <;> rfl

/-- The call tags in a part, at any depth. -/
def Part.callNodes : Part → List (Origin × Bool)
  | .statement stmt => Stmt.callNodes stmt.toList
  | .body _ stmts _ | .otherwise _ _ stmts => Stmt.callNodes stmts
  | .branches _ elifs _ => elifs.flatMap fun branch => Stmt.callNodes branch.body

/-- What stands from one place up to another falls into calm stretches, call tags without a body,
and call blocks. -/
inductive CallsIn (stream : TokenStream) :
    (start : Nat) → List (Origin × Bool) → (stop : Nat) → Prop where
  | calm {start stop : Nat} (calm : Calm stream start stop) : CallsIn stream start [] stop
  | append {start middle stop : Nat} {first second : List (Origin × Bool)}
      (before : CallsIn stream start first middle) (after : CallsIn stream middle second stop) :
      CallsIn stream start (first ++ second) stop
  | bareCall {start stop : Nat} (tag : Tag stream start "call" stop)
      (isBare : endcallFrom stream 0 (stop + 1) = false) :
      CallsIn stream start [(originFrom stream start, false)] (stop + 1)
  | callBlock {start inner middle stop : Nat} {calls : List (Origin × Bool)}
      (tag : Tag stream start "call" inner) (hasBody : endcallFrom stream 0 (inner + 1) = true)
      (inside : CallsIn stream (inner + 1) calls middle)
      (closes : Tag stream middle "endcall" stop) :
      CallsIn stream start ((originFrom stream start, true) :: calls) (stop + 1)

namespace CallsIn

variable {calls : List (Origin × Bool)}

theorem before (callsIn : CallsIn stream start calls middle) (calm : Calm stream middle stop) :
    CallsIn stream start calls stop := by
  simpa using callsIn.append (.calm calm)

theorem after (callsIn : CallsIn stream middle calls stop) (calm : Calm stream start middle) :
    CallsIn stream start calls stop := by
  simpa using (CallsIn.calm calm).append callsIn

end CallsIn

/-- What call tags between two places, some of them without a body or none, leave to be closed. -/
structure Settled (stream : TokenStream) (calls : List (Origin × Bool)) (start stop : Nat) :
    Prop where
  balanced : (∀ call ∈ calls, call.2 = true) → Balanced stream start stop
  noEndcall : (∃ call ∈ calls, call.2 = false) → endcallFrom stream 0 stop = false

/-- Every call tag in what ends before an `endcall` tag has a body. -/
theorem Settled.haveBody (closed : stream.IsClosed) {calls : List (Origin × Bool)}
    (settled : Settled stream calls start stop) (begins : Begins stream stop "endcall") :
    ∀ call ∈ calls, call.2 = true := by
  intro call isCall
  by_contra isBare
  have notAhead := settled.noEndcall ⟨call, isCall, by simpa using isBare⟩
  rw [begins.endcall closed] at notAhead
  cases notAhead

theorem CallsIn.settled (closed : stream.IsClosed) {calls : List (Origin × Bool)}
    (callsIn : CallsIn stream start calls stop) : Settled stream calls start stop := by
  induction callsIn with
  | calm calm => exact ⟨fun _ => calm.balanced closed, by simp⟩
  | @append _ _ _ first second _ _ ihFirst ihSecond =>
      constructor
      · intro all
        rw [List.forall_mem_append] at all
        exact (ihFirst.balanced all.1).trans (ihSecond.balanced all.2)
      · rintro ⟨call, isCall, isBare⟩
        by_cases later : ∃ call ∈ second, call.2 = false
        · exact ihSecond.noEndcall later
        · have haveBody : ∀ call ∈ second, call.2 = true := by simpa using later
          rcases List.mem_append.1 isCall with isFirst | isSecond
          · rw [← ihSecond.balanced haveBody]
            exact ihFirst.noEndcall ⟨call, isFirst, isBare⟩
          · exact absurd ⟨call, isSecond, isBare⟩ later
  | bareCall _ isBare =>
      constructor
      · simp
      · intro _
        exact isBare
  | @callBlock start inner middle stop calls tag hasBody inside closes ih =>
      have haveBody := ih.haveBody closed closes.toBegins
      constructor
      · intro _ count
        rw [tag.opens closed, ih.balanced haveBody, closes.closes closed]
      · rintro ⟨call, isCall, isBare⟩
        rcases List.mem_cons.1 isCall with rfl | isCall
        · cases isBare
        · rw [haveBody call isCall] at isBare
          cases isBare

/-! ### Call tags in what is derived -/

/-- The word of the tag after a part is one of those that can end the part. -/
def Part.EndsWell : Part → Prop
  | .body enders _ ender => ender ∈ enders
  | .branches ender _ last => ender ∈ branchEnders → last ∈ branchEnders
  | .statement _ | .otherwise .. => True

variable [Limits]

theorem Derived.endsWell {part : Part} (derived : Derived stream depth start part stop) :
    part.EndsWell := by
  induction derived with
  | ended _ isEnder => exact isEnder
  | more _ _ _ ih => exact ih
  | noBranch => exact id
  | branch _ _ _ _ ihBody ihRest => exact fun _ => ihRest ihBody
  | _ => exact trivial

omit [Limits] in
/-- The tag that closes an alternative is none that is counted. -/
def Part.ClosesQuietly : Part → Prop
  | .otherwise _ closer _ => closer ≠ "call" ∧ closer ≠ "endcall"
  | .statement _ | .body .. | .branches .. => True

/-- The call tags of a part are those that stand between the places from and to which it is
derived. -/
theorem Derived.callsIn (closed : stream.IsClosed) {part : Part}
    (derived : Derived stream depth start part stop) :
    part.ClosesQuietly → CallsIn stream start part.callNodes stop := by
  induction derived with
  | text isData reads =>
      intro _
      simpa [Part.callNodes, callNodes_singleton, callNode?, bodies] using
        CallsIn.calm (.of_plainText closed reads)
  | output _ isOutput reads ends =>
      have opens := Calm.of_kind isOutput (by decide) (by decide)
      have inside := Calm.of_passes ((Expr.parse_reads closed _).of_ok reads).1
      have closes := Calm.of_kind ends (by decide) (by decide)
      intro _
      simpa [Part.callNodes, callNodes_singleton, callNode?, bodies] using
        CallsIn.calm (opens.trans (inside.trans closes))
  | raw isRaw reads ends =>
      have opens := Calm.of_kind isRaw (by decide) (by decide)
      have inside := Calm.of_plainText closed reads
      have closes := Calm.of_kind ends (by decide) (by decide)
      intro _
      simpa [Part.callNodes, callNodes_singleton, callNode?, bodies] using
        CallsIn.calm (opens.trans (inside.trans closes))
  | comment isComment reads =>
      intro _
      exact .calm (.of_skipComment closed isComment reads)
  | continue_ tag isAlone | break_ tag isAlone | debug tag isAlone =>
      intro _
      simpa [Part.callNodes, callNodes_singleton, callNode?, bodies] using
        CallsIn.calm (tag.calm_of_mem isAlone (by decide) (by decide))
  | evaluate _ tag | parent _ tag | inclusion _ tag | importAs _ tag | importNames _ tag
  | assign _ tag =>
      intro _
      simpa [Part.callNodes, callNodes_singleton, callNode?, bodies] using
        CallsIn.calm (tag.calm (by decide) (by decide))
  | bareCall _ tag _ _ _ isBare =>
      intro _
      simpa [Part.callNodes, callNodes_singleton, callNode?, bodies] using
        CallsIn.bareCall tag isBare
  | forLoop _ tag _ _ _ _ _ _ body closes _ ihBody ihRest =>
      intro _
      have ends := closes.calm_of_mem body.endsWell (by decide) (by decide)
      have all := (((ihBody trivial).before ends).append (ihRest ⟨by decide, by decide⟩)).after
        (tag.calm (by decide) (by decide))
      simpa [Part.callNodes, callNodes_singleton, callNode?, bodies] using all
  | choice _ tag _ body branches closes _ ihBody ihBranches ihRest =>
      intro _
      have ends := closes.calm_of_mem (branches.endsWell body.endsWell) (by decide) (by decide)
      have rest := ((ihBranches trivial).before ends).append (ihRest ⟨by decide, by decide⟩)
      have all := ((ihBody trivial).append rest).after (tag.calm (by decide) (by decide))
      simpa [Part.callNodes, callNodes_singleton, callNode?, bodies, List.flatMap_map] using all
  | capture _ tag _ _ _ closes ih | block _ tag _ _ _ closes ih | macro_ _ tag _ _ _ closes ih
  | scope _ tag _ _ closes ih | filtered _ tag _ _ closes ih | autoescape _ tag _ _ closes ih =>
      intro _
      have all := ((ih trivial).before (closes.calm (by decide) (by decide))).after
        (tag.calm (by decide) (by decide))
      simpa [Part.callNodes, callNodes_singleton, callNode?, bodies] using all
  | callBlock _ tag _ _ _ hasBody _ closes ih =>
      intro _
      simpa [Part.callNodes, callNodes_singleton, callNode?, bodies] using
        CallsIn.callBlock tag hasBody (ih trivial) closes
  | ended | noBranch | noElse =>
      intro _
      exact .calm (.refl stream _)
  | more _ _ ihFirst ihRest =>
      intro _
      simpa [Part.callNodes] using (ihFirst trivial).append (ihRest trivial)
  | branch tag _ _ _ ihBody ihRest =>
      intro _
      have all := ((ihBody trivial).append (ihRest trivial)).after
        (tag.calm (by decide) (by decide))
      simpa [Part.callNodes] using all
  | else_ _ closes ih =>
      intro quiet
      exact (ih trivial).before (closes.calm quiet.1 quiet.2)

/-- Every call tag in the body of a call block has a body. -/
theorem Derived.haveBody (closed : stream.IsClosed) {enders : List String}
    {body : List Stmt} {ender : String}
    (derived : Derived stream depth start (.body enders body ender) stop)
    (begins : Begins stream stop "endcall") : ∀ call ∈ callNodes body, call.2 = true :=
  ((derived.callsIn closed trivial).settled closed).haveBody closed begins

/-- No call tag without a body stands in the body of a call block. -/
theorem Derived.any_hasBareCall_eq_false (closed : stream.IsClosed) {enders : List String}
    {body : List Stmt} {ender : String}
    (derived : Derived stream depth start (.body enders body ender) stop)
    (begins : Begins stream stop "endcall") : ∀ stmt ∈ body, stmt.hasBareCall = false := by
  have noBareCall : body.any hasBareCall = false := by
    rw [any_hasBareCall_eq]
    simpa using derived.haveBody closed begins
  simpa using noBareCall

end Stmt

end Stencil
