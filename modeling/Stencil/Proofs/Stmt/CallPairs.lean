import Stencil.Proofs.Stmt.Calls

/-!
# Call tags and closing tags as brackets

Read from left to right, call tags and the tags that close them are brackets: a closing tag belongs
to the last call tag that is still open. A scan that counts finds out whether a call tag is paired,
and call blocks pair the tags in the same way: the calls of a part are its call tags in their order,
those with a body have a closing tag each, and the pairs of a stretch without bare call tags do not
depend on what is open before it.
-/

namespace Stencil

namespace TokenStream

variable {stream : TokenStream} {start middle stop : Nat}

/-- The template does not end before its last token. -/
def EndsOnce (stream : TokenStream) : Prop :=
  ∀ index, index + 1 < stream.size → (stream.get index).kind ≠ .eof

/-- The places between two others at which a block tag with a given word begins. -/
def tagsIn (stream : TokenStream) (word : String) (start stop : Nat) : List Nat :=
  (List.range' start (stop - start)).filter (stream.isTag word)

theorem tagsIn_append (word : String) (inOrder : start ≤ middle) (later : middle ≤ stop) :
    stream.tagsIn word start stop =
      stream.tagsIn word start middle ++ stream.tagsIn word middle stop := by
  have length : stop - start = (middle - start) + (stop - middle) := by omega
  have joined := @List.range'_append_1 start (middle - start) (stop - middle)
  rw [Nat.add_sub_cancel' inOrder] at joined
  rw [tagsIn, length, ← joined, List.filter_append]
  rfl

theorem tagsIn_eq_nil {word : String}
    (noTag : ∀ index, start ≤ index → index < stop → stream.isTag word index = false) :
    stream.tagsIn word start stop = [] := by
  rw [tagsIn, List.filter_eq_nil_iff]
  intro index isBetween
  rw [List.mem_range'_1] at isBetween
  simp [noTag index isBetween.1 (by omega)]

theorem tagsIn_succ (word : String) (start : Nat) :
    stream.tagsIn word start (start + 1) = if stream.isTag word start then [start] else [] := by
  rw [tagsIn, Nat.add_sub_cancel_left, List.range'_one, List.filter_singleton]
  cases stream.isTag word start <;> rfl

end TokenStream

namespace Stmt

variable {stream : TokenStream} {start middle stop : Nat} {word : String}

theorem Calm.tagsIn_call (calm : Calm stream start stop) : stream.tagsIn "call" start stop = [] :=
  TokenStream.tagsIn_eq_nil calm.noCall

theorem Calm.tagsIn_endcall (calm : Calm stream start stop) :
    stream.tagsIn "endcall" start stop = [] :=
  TokenStream.tagsIn_eq_nil calm.noEndcall

theorem Tag.tagsIn_call (tag : Tag stream start word stop) :
    stream.tagsIn "call" start (stop + 1) = if word = "call" then [start] else [] := by
  have inOrder := tag.inside.inOrder
  rw [TokenStream.tagsIn_append "call" (Nat.le_succ start) (by omega), tag.rest_calm.tagsIn_call,
    List.append_nil, TokenStream.tagsIn_succ, tag.isTag]
  simp

theorem Tag.tagsIn_endcall (tag : Tag stream start word stop) :
    stream.tagsIn "endcall" start (stop + 1) = if word = "endcall" then [start] else [] := by
  have inOrder := tag.inside.inOrder
  rw [TokenStream.tagsIn_append "endcall" (Nat.le_succ start) (by omega),
    tag.rest_calm.tagsIn_endcall, List.append_nil, TokenStream.tagsIn_succ, tag.isTag]
  simp

/-! ### The calls of a stretch are its call tags -/

theorem CallsIn.inOrder {calls : List (Origin × Bool)} (callsIn : CallsIn stream start calls stop) :
    start ≤ stop := by
  induction callsIn with
  | calm calm => exact calm.inOrder
  | append _ _ ihFirst ihSecond => exact Nat.le_trans ihFirst ihSecond
  | bareCall tag =>
      have := tag.inside.inOrder
      omega
  | callBlock tag _ _ closes ih =>
      have := tag.inside.inOrder
      have := closes.inside.inOrder
      omega

/-- The calls of a stretch are its call tags in their order, and the scan from a call tag on tells
which of them have a body. -/
theorem CallsIn.eq_tagsIn (closed : stream.IsClosed) {calls : List (Origin × Bool)}
    (callsIn : CallsIn stream start calls stop) :
    calls = (stream.tagsIn "call" start stop).map fun index =>
      (originFrom stream index, endcallFrom stream 0 (index + 1)) := by
  induction callsIn with
  | calm calm => simp [calm.tagsIn_call]
  | append before after ihFirst ihSecond =>
      rw [TokenStream.tagsIn_append "call" before.inOrder after.inOrder, List.map_append,
        ← ihFirst, ← ihSecond]
  | bareCall tag isBare =>
      simp [tag.tagsIn_call, tag.rest_calm.balanced closed 0, isBare]
  | @callBlock start inner middle stop calls tag hasBody inside closes ih =>
      have first := tag.inside.inOrder
      have last := closes.inside.inOrder
      rw [TokenStream.tagsIn_append "call" (show start ≤ inner + 1 by omega)
          (show inner + 1 ≤ stop + 1 by have := inside.inOrder; omega),
        TokenStream.tagsIn_append "call" inside.inOrder (by omega), List.map_append,
        List.map_append, ← ih]
      simp [tag.tagsIn_call, closes.tagsIn_call, tag.rest_calm.balanced closed 0, hasBody]

/-- In a stretch there are as many tags that close a call block as there are calls with a body. -/
theorem CallsIn.count_eq {calls : List (Origin × Bool)}
    (callsIn : CallsIn stream start calls stop) :
    calls.countP (·.2) = (stream.tagsIn "endcall" start stop).length := by
  induction callsIn with
  | calm calm => simp [calm.tagsIn_endcall]
  | append before after ihFirst ihSecond =>
      rw [TokenStream.tagsIn_append "endcall" before.inOrder after.inOrder, List.length_append,
        List.countP_append, ihFirst, ihSecond]
  | bareCall tag => simp [tag.tagsIn_endcall]
  | @callBlock start inner middle stop calls tag hasBody inside closes ih =>
      have first := tag.inside.inOrder
      have last := closes.inside.inOrder
      rw [TokenStream.tagsIn_append "endcall" (show start ≤ inner + 1 by omega)
          (show inner + 1 ≤ stop + 1 by have := inside.inOrder; omega),
        TokenStream.tagsIn_append "endcall" inside.inOrder (by omega), List.length_append,
        List.length_append, ← ih]
      simp [tag.tagsIn_endcall, closes.tagsIn_endcall]

/-! ### Pairs -/

/-- The pairs that call tags form with the tags that close them, in the order of the latter, given
the places of the call tags that are still open, innermost first, and the place of the first
token. -/
def callPairs (opened : List Nat) (index : Nat) : List Token → List (Nat × Nat)
  | [] => []
  | token :: rest =>
    if token.kind = .blockBegin ∧ rest.head?.any (·.isWord "call") then
      callPairs (index :: opened) (index + 1) rest
    else if token.kind = .blockBegin ∧ rest.head?.any (·.isWord "endcall") then
      match opened with
      | [] => callPairs [] (index + 1) rest
      | call :: outer => (call, index) :: callPairs outer (index + 1) rest
    else callPairs opened (index + 1) rest

/-- The pairs that are formed from a place on. -/
def pairsFrom (stream : TokenStream) (opened : List Nat) (start : Nat) : List (Nat × Nat) :=
  callPairs opened start (stream.significant.toList.drop start)

/-- At most one token is left from the last place on, and no tag. -/
theorem drop_length_le (isLast : stream.size ≤ start + 1) :
    (stream.significant.toList.drop start).length ≤ 1 := by
  rw [List.length_drop, Array.length_toList]
  unfold TokenStream.size at isLast
  omega

theorem pairsFrom_last (isLast : stream.size ≤ start + 1) (opened : List Nat) :
    pairsFrom stream opened start = [] := by
  unfold pairsFrom
  match stream.significant.toList.drop start, drop_length_le isLast with
  | [], _ => rfl
  | [token], _ => cases opened <;> simp [callPairs]

theorem endcallFrom_last (isLast : stream.size ≤ start + 1) (calls : Nat) :
    endcallFrom stream calls start = false := by
  unfold endcallFrom
  match stream.significant.toList.drop start, drop_length_le isLast with
  | [], _ => rfl
  | [token], _ => simp [endcallFollows]

section

variable (closed : stream.IsClosed)

include closed

theorem pairsFrom_eq (notEnd : (stream.get start).kind ≠ .eof) (opened : List Nat) :
    pairsFrom stream opened start =
      if stream.isTag "call" start then pairsFrom stream (start :: opened) (start + 1)
      else if stream.isTag "endcall" start then
        match opened with
        | [] => pairsFrom stream [] (start + 1)
        | call :: outer => (call, start) :: pairsFrom stream outer (start + 1)
      else pairsFrom stream opened (start + 1) := by
  rw [pairsFrom, drop_of_notEnd closed notEnd]
  cases opened <;> simp only [callPairs, isTag_eq closed notEnd, pairsFrom]

theorem Calm.pairsFrom_eq (calm : Calm stream start stop) (opened : List Nat) :
    pairsFrom stream opened start = pairsFrom stream opened stop := by
  apply calm.eq_of_succ
  intro index notEnd noCall noEndcall
  rw [Stmt.pairsFrom_eq closed notEnd]
  simp [noCall, noEndcall]

theorem Tag.pairsFrom_call (tag : Tag stream start "call" stop) (opened : List Nat) :
    pairsFrom stream opened start = pairsFrom stream (start :: opened) (stop + 1) := by
  rw [pairsFrom_eq closed tag.notEnd.1, tag.isTag, tag.rest_calm.pairsFrom_eq closed]
  rfl

theorem Tag.pairsFrom_endcall (tag : Tag stream start "endcall" stop) (call : Nat)
    (opened : List Nat) : pairsFrom stream (call :: opened) start =
      (call, start) :: pairsFrom stream opened (stop + 1) := by
  rw [pairsFrom_eq closed tag.notEnd.1, tag.isTag, tag.isTag]
  simp [tag.rest_calm.pairsFrom_eq closed]

/-- What is open before a stretch is open after it, if all of its calls have a body. -/
theorem CallsIn.pairsFrom_eq {calls : List (Origin × Bool)}
    (callsIn : CallsIn stream start calls stop) (haveBody : ∀ call ∈ calls, call.2 = true)
    (opened : List Nat) :
    ∃ pairs, pairsFrom stream opened start = pairs ++ pairsFrom stream opened stop := by
  induction callsIn generalizing opened with
  | calm calm => exact ⟨[], calm.pairsFrom_eq closed opened⟩
  | append _ _ ihFirst ihSecond =>
      rw [List.forall_mem_append] at haveBody
      rcases ihFirst haveBody.1 opened with ⟨first, isFirst⟩
      rcases ihSecond haveBody.2 opened with ⟨second, isSecond⟩
      exact ⟨first ++ second, by rw [isFirst, isSecond, List.append_assoc]⟩
  | bareCall => simp at haveBody
  | @callBlock start inner middle stop calls tag _ _ closes ih =>
      rcases ih (fun call isCall => haveBody call (List.mem_cons_of_mem _ isCall))
        (start :: opened) with ⟨inside, isInside⟩
      refine ⟨inside ++ [(start, middle)], ?_⟩
      rw [tag.pairsFrom_call closed, isInside, closes.pairsFrom_endcall closed]
      simp

end

/-! ### The scan finds the pairs -/

/-- The call tags that are open at a place are different ones, and all of them come earlier. -/
structure OpenAt (opened : List Nat) (start : Nat) : Prop where
  distinct : opened.Nodup
  earlier : ∀ place ∈ opened, place < start

namespace OpenAt

variable {opened outer : List Nat} {innermost : Nat}

theorem nil (start : Nat) : OpenAt [] start := by
  constructor <;> simp

theorem onward (openAt : OpenAt opened start) : OpenAt opened (start + 1) := by
  refine ⟨openAt.distinct, ?_⟩
  intro place isOpen
  exact Nat.lt_succ_of_lt (openAt.earlier place isOpen)

theorem opens (openAt : OpenAt opened start) : OpenAt (start :: opened) (start + 1) := by
  constructor
  · refine List.nodup_cons.2 ⟨?_, openAt.distinct⟩
    intro isOpen
    exact Nat.lt_irrefl start (openAt.earlier start isOpen)
  · exact List.forall_mem_cons.2 ⟨Nat.lt_succ_self start, openAt.onward.earlier⟩

theorem closes (openAt : OpenAt (innermost :: outer) start) : OpenAt outer (start + 1) := by
  constructor
  · exact (List.nodup_cons.1 openAt.distinct).2
  · intro place isOpen
    exact openAt.onward.earlier place (List.mem_cons_of_mem _ isOpen)

theorem ne_innermost (openAt : OpenAt (innermost :: outer) start) {place : Nat}
    (isOuter : place ∈ outer) : place ≠ innermost := by
  rintro rfl
  exact (List.nodup_cons.1 openAt.distinct).1 isOuter

end OpenAt

section

variable (closed : stream.IsClosed) (endsOnce : stream.EndsOnce)

include closed endsOnce

/-- From any place on, a scan that counts finds the tag that closes an open call tag exactly if the
call tag is paired; the count is the number of call tags that are open inside of it. -/
theorem endcallFrom_iff {opened : List Nat} {count call : Nat}
    (isOpen : opened[count]? = some call) (openAt : OpenAt opened start) :
    endcallFrom stream count start = true ↔
      ∃ closing, (call, closing) ∈ pairsFrom stream opened start := by
  generalize left : stream.size - start = rest
  induction rest using Nat.strongRecOn generalizing start opened count with
  | ind rest ih =>
      by_cases isLast : stream.size ≤ start + 1
      · simp [pairsFrom_last isLast, endcallFrom_last isLast]
      · have notEnd := endsOnce start (by omega)
        have shorter : stream.size - (start + 1) < rest := by omega
        rw [endcallFrom_eq closed notEnd, pairsFrom_eq closed notEnd]
        cases stream.isTag "call" start with
        | true =>
            have isInner : (start :: opened)[count + 1]? = some call := isOpen
            simpa using ih _ shorter isInner openAt.opens rfl
        | false =>
            cases stream.isTag "endcall" start with
            | false => simpa using ih _ shorter isOpen openAt.onward rfl
            | true =>
                cases opened with
                | nil => simp at isOpen
                | cons innermost outer =>
                    cases count with
                    | zero =>
                        obtain rfl : innermost = call := by simpa using isOpen
                        simp
                    | succ count =>
                        have isOuter : outer[count]? = some call := by simpa using isOpen
                        have notInnermost := openAt.ne_innermost (List.mem_of_getElem? isOuter)
                        simpa [notInnermost] using ih _ shorter isOuter openAt.closes rfl

/-- A call tag is paired exactly if the scan that starts after it finds a tag that closes it. -/
theorem endcallFrom_iff_paired {index : Nat} (isCall : stream.isTag "call" index = true)
    {opened : List Nat} (openAt : OpenAt opened start) (notAfter : start ≤ index) :
    endcallFrom stream 0 (index + 1) = true ↔
      ∃ closing, (index, closing) ∈ pairsFrom stream opened start := by
  have isBlock : (stream.get index).kind = .blockBegin := by
    simp only [TokenStream.isTag, Bool.and_eq_true, decide_eq_true_eq] at isCall
    exact isCall.1
  have inside := closed.lt_size (show (stream.get index).kind ≠ .eof by simp [isBlock])
  induction notAfter using Nat.decreasingInduction generalizing opened with
  | self =>
      rw [pairsFrom_eq closed (endsOnce index inside), if_pos isCall]
      exact endcallFrom_iff closed endsOnce rfl openAt.opens
  | of_succ start isBefore ih =>
      rw [pairsFrom_eq closed (endsOnce start (by omega))]
      cases stream.isTag "call" start with
      | true => simpa using ih openAt.opens
      | false =>
          cases stream.isTag "endcall" start with
          | false => simpa using ih openAt.onward
          | true =>
              cases opened with
              | nil => simpa using ih (.nil _)
              | cons innermost outer =>
                  have notInnermost : index ≠ innermost := by
                    have := openAt.earlier innermost List.mem_cons_self
                    omega
                  simpa [notInnermost] using ih openAt.closes

end

end Stmt

end Stencil
