import NetworkFileServer.Relay.ProxyStreams

/-!
# Handlers that serve a response

A handler of `proxy_request` reads payloads from its stream and passes them on to the browser: the
first one as status and headers, the others through the body iterator, a buffered HTML body or one
of the two generators. Every step of such a handler either accounts for what it reads or gives the
response up.
-/

namespace NetworkFileServer.Relay

open Tunnel TunnelConnection

/-- The body of the response can still finish normally. -/
def ProxyPc.serving : ProxyPc → Bool
  | .sendingRequest | .readingFirst | .buffering _ _ | .responding | .respondingOverCap _ _
  | .replaying _ _ | .streaming _ | .checking _ => true
  | .absent | .timedOut | .wsOpening | .wsStarting | .bridging _ | .leaving | .ended => false

/-- Where the iterator of the response body is, once it was started. -/
def ProxyPc.bodyIter : ProxyPc → Option IterPc
  | .buffering iter _ | .respondingOverCap iter _ | .replaying iter _ | .streaming iter
  | .checking iter => some iter
  | _ => none

/-- What was read for the browser and not passed on yet; `chunk` is what a generator holds while it
asks `is_disconnected`. -/
def ProxyPc.unpassed (chunk : List Bytes) : ProxyPc → List Bytes
  | .buffering iter parts | .respondingOverCap iter parts | .replaying iter parts =>
      parts ++ iter.held
  | .streaming iter => iter.held
  | .checking iter => chunk ++ iter.held
  | _ => []

/-- What a step of the handler passes on to the browser. The first payload is the status and the
headers; a buffered HTML body is passed on whole. -/
def passedOn (conn : TunnelConnection) (id : UUID) (chunk : List Bytes) :
    ProxyPc → ProxyEvent → List Bytes
  | .readingFirst, .firstByte _ => (conn.takeItem id).toList.map Prod.fst
  | .buffering iter parts, .iter e =>
      match conn.iterStep id iter e with
      | some (_, .finished, _) => parts
      | _ => []
  | .replaying _ (part :: _), .replay => [part]
  | .checking _, .connected => chunk
  | _, _ => []

/-- The chunk that a generator holds after the step. -/
def chunkInHand (conn : TunnelConnection) (id : UUID) : ProxyPc → ProxyEvent → List Bytes
  | .streaming iter, .iter e => ((conn.iterStep id iter e).bind fun (_, _, out) => out).toList
  | _, _ => []

/-- The step ends the `async for` over the response body. -/
def finishesBody (conn : TunnelConnection) (id : UUID) : ProxyPc → ProxyEvent → Bool
  | .buffering iter _, .iter e | .streaming iter, .iter e =>
      (conn.iterStep id iter e).any fun (_, iter', _) => iter' = .finished
  | _, _ => false

/-- The iterator has not been started, or is at the start of its first round. -/
def ProxyPc.IterFresh (pc : ProxyPc) : Prop :=
  ∀ iter, pc.bodyIter = some iter → iter = .waiting none false

/-- What a handler can do between two of its serving positions, and in the step that finishes the
body: `before` and `after` is what it has read and not passed on, `passed` what it passes on. -/
inductive ServingStep (conn conn' : TunnelConnection) (id : UUID) (pc pc' : ProxyPc)
    (before passed after : List Bytes) : Prop
  | moves (hconn : conn' = conn) (hiter : pc'.bodyIter = pc.bodyIter ∨ pc'.IterFresh)
      (hpassed : before = passed ++ after)
  | takesFirst (p : Bytes) (htake : conn.takeItem id = some (p, conn')) (hiter : pc'.IterFresh)
      (hbefore : before = []) (hpassed : passed = [p]) (hafter : after = [])
  | iterates (iter iter' : IterPc) (e : IterEvent) (out : Option Bytes) (read : List Bytes)
      (hstep : conn.iterStep id iter e = some (conn', iter', out)) (hfin : iter' ≠ .finished)
      (hpc : pc.bodyIter = some iter) (hpc' : pc'.bodyIter = some iter')
      (hbefore : before = read ++ iter.held) (hpassed : passed = [])
      (hafter : after = read ++ out.toList ++ iter'.held)
  | finishes (iter : IterPc) (e : IterEvent) (taken : TunnelConnection)
      (hstep : conn.iterStep id iter e = some (taken, .finished, none))
      (hconn : conn' = taken ∨ conn' = taken.removeStream id)
      (hpc : pc.bodyIter = some iter) (hpc' : pc' = .ended)
      (hbefore : before = passed ++ iter.held) (hafter : after = [])

private theorem servingStep_buffering (conn conn' : TunnelConnection) (id : UUID) (iter : IterPc)
    (parts : List Bytes) (pc' : ProxyPc) (e : IterEvent) (chunk : List Bytes)
    (h : proxyStep conn id (.buffering iter parts) (.iter e) = some (conn', pc')) :
    ServingStep conn conn' id (.buffering iter parts) pc' (parts ++ iter.held)
      (passedOn conn id chunk (.buffering iter parts) (.iter e)) (pc'.unpassed []) := by
  obtain ⟨⟨taken, iter', out⟩, hstep, heq⟩ := Option.map_eq_some_iff.mp h
  cases heq
  by_cases hfin : iter' = .finished
  · subst hfin
    obtain ⟨-, rfl, -, -⟩ := iterStep_finished conn _ id iter e out hstep
    refine .finishes iter e _ hstep (.inl rfl) rfl rfl ?_ rfl
    simp [passedOn, hstep]
  · have hpassed : passedOn conn id chunk (.buffering iter parts) (.iter e) = [] := by
      simp only [passedOn, hstep]
      split
      · rename_i heq
        cases heq
        exact absurd rfl hfin
      · rfl
    cases out with
    | none =>
        refine .iterates iter iter' e none parts hstep hfin rfl ?_ rfl hpassed ?_
        · simp [bufferPart, hfin, ProxyPc.bodyIter]
        · simp [bufferPart, hfin, ProxyPc.unpassed]
    | some part =>
        refine .iterates iter iter' e (some part) parts hstep hfin rfl ?_ rfl hpassed ?_
        · simp only [bufferPart]
          split <;> rfl
        · simp only [bufferPart]
          split <;> simp [ProxyPc.unpassed]

private theorem servingStep_streaming (conn conn' : TunnelConnection) (id : UUID) (iter : IterPc)
    (pc' : ProxyPc) (e : IterEvent)
    (h : proxyStep conn id (.streaming iter) (.iter e) = some (conn', pc')) :
    ServingStep conn conn' id (.streaming iter) pc' iter.held []
      (pc'.unpassed (chunkInHand conn id (.streaming iter) (.iter e))) := by
  obtain ⟨⟨taken, iter', out⟩, hstep, heq⟩ := Option.map_eq_some_iff.mp h
  have hhand : chunkInHand conn id (.streaming iter) (.iter e) = out.toList := by
    simp [chunkInHand, hstep]
  by_cases hfin : iter' = .finished
  · subst hfin
    obtain ⟨-, rfl, -, -⟩ := iterStep_finished conn taken id iter e out hstep
    cases heq
    exact .finishes iter e taken hstep (.inr rfl) rfl rfl rfl rfl
  · cases out with
    | none =>
        simp only [hfin, if_false] at heq
        cases heq
        exact .iterates iter iter' e none [] hstep hfin rfl rfl rfl rfl rfl
    | some part =>
        cases heq
        refine .iterates iter iter' e (some part) [] hstep hfin rfl rfl rfl rfl ?_
        simp [hhand, ProxyPc.unpassed]

private theorem iterFresh_startIter (conn : TunnelConnection) (id : UUID) (started : ProxyPc)
    (hstarted : started.IterFresh) : (startIter conn id started .ended).IterFresh := by
  unfold startIter
  split
  · exact hstarted
  · exact nofun

private theorem unpassed_startIter (conn : TunnelConnection) (id : UUID) (started : ProxyPc)
    (chunk : List Bytes) (hstarted : started.unpassed chunk = []) :
    (startIter conn id started .ended).unpassed chunk = [] := by
  unfold startIter
  split
  · exact hstarted
  · rfl

private theorem servingStep_firstByte (conn conn' : TunnelConnection) (id : UUID) (pc' : ProxyPc)
    (response : ResponseMeta) (chunk : List Bytes)
    (h : proxyStep conn id .readingFirst (.firstByte response) = some (conn', pc')) :
    ServingStep conn conn' id .readingFirst pc' []
      (passedOn conn id chunk .readingFirst (.firstByte response)) (pc'.unpassed []) := by
  obtain ⟨⟨p, taken⟩, ht, heq⟩ := Option.map_eq_some_iff.mp h
  have hpassed : passedOn conn id chunk .readingFirst (.firstByte response) = [p] := by
    simp [passedOn, ht]
  cases response with
  | malformed =>
      cases heq
      exact .takesFirst p ht nofun rfl hpassed rfl
  | other =>
      cases heq
      exact .takesFirst p ht nofun rfl hpassed rfl
  | html =>
      cases heq
      refine .takesFirst p ht ?_ rfl hpassed (unpassed_startIter _ id _ _ rfl)
      apply iterFresh_startIter
      intro iter hiter
      cases hiter
      rfl

theorem proxyStep_serving (conn conn' : TunnelConnection) (id : UUID) (pc pc' : ProxyPc)
    (e : ProxyEvent) (chunk : List Bytes) (h : proxyStep conn id pc e = some (conn', pc'))
    (hpc : pc.serving = true) (hnext : pc'.serving = true ∨ finishesBody conn id pc e = true) :
    ServingStep conn conn' id pc pc' (pc.unpassed chunk) (passedOn conn id chunk pc e)
      (pc'.unpassed (chunkInHand conn id pc e)) := by
  cases pc with
  | absent | timedOut | wsOpening | wsStarting | bridging | leaving | ended => cases hpc
  | sendingRequest =>
      cases e with
      | sent =>
          cases h
          exact .moves rfl (.inr (iterFresh_startIter conn id _ nofun))
            (unpassed_startIter conn id _ _ rfl).symm
      | _ => cases h <;> simp [ProxyPc.serving, finishesBody] at hnext
  | readingFirst =>
      cases e with
      | firstByte response => exact servingStep_firstByte conn conn' id pc' response chunk h
      | _ => cases h <;> simp [ProxyPc.serving, finishesBody] at hnext
  | buffering iter parts =>
      cases e with
      | iter e' => exact servingStep_buffering conn conn' id iter parts pc' e' chunk h
      | _ => cases h <;> simp [ProxyPc.serving, finishesBody] at hnext
  | responding =>
      cases e with
      | startBody =>
          cases h
          refine .moves rfl (.inr ?_) (unpassed_startIter conn id _ _ rfl).symm
          apply iterFresh_startIter
          intro iter hiter
          cases hiter
          rfl
      | _ => cases h <;> simp [ProxyPc.serving, finishesBody] at hnext
  | respondingOverCap iter parts =>
      cases e with
      | startBody =>
          cases h
          exact .moves rfl (.inl rfl) rfl
      | _ => cases h <;> simp [ProxyPc.serving, finishesBody] at hnext
  | replaying iter parts =>
      cases e with
      | replay =>
          cases parts with
          | nil =>
              cases h
              exact .moves rfl (.inl rfl) rfl
          | cons part parts =>
              cases h
              exact .moves rfl (.inl rfl) rfl
      | _ => cases parts <;> cases h <;> simp [ProxyPc.serving, finishesBody] at hnext
  | streaming iter =>
      cases e with
      | iter e' => exact servingStep_streaming conn conn' id iter pc' e' h
      | _ => cases h <;> simp [ProxyPc.serving, finishesBody] at hnext
  | checking iter =>
      cases e with
      | connected =>
          cases h
          exact .moves rfl (.inl rfl) rfl
      | _ => cases h <;> simp [ProxyPc.serving, finishesBody] at hnext

section ServingStep

variable {conn conn' : TunnelConnection} {id : UUID} {pc pc' : ProxyPc}
  {before passed after : List Bytes}

theorem ServingStep.account (h : ServingStep conn conn' id pc pc' before passed after) :
    before ++ conn.buffered id = passed ++ (after ++ conn'.buffered id) := by
  cases h with
  | moves hconn _ hpassed => rw [hconn, hpassed, List.append_assoc]
  | takesFirst p htake _ hbefore hpassed hafter =>
      rw [hbefore, hpassed, hafter, takeItem_buffered conn conn' id p htake]
      rfl
  | iterates iter iter' e out read hstep _ _ _ hbefore hpassed hafter =>
      have hkept := iterStep_buffered conn conn' id iter iter' e out hstep
      rw [hbefore, hpassed, hafter, List.append_assoc, hkept]
      simp
  | finishes iter e taken hstep hconn _ _ hbefore hafter =>
      have hkept := iterStep_buffered conn taken id iter .finished e none hstep
      have hsame : conn'.buffered id = taken.buffered id := by
        rcases hconn with rfl | rfl <;> rfl
      rw [hbefore, hafter, hsame, List.append_assoc, hkept]
      rfl

theorem ServingStep.consistent (h : ServingStep conn conn' id pc pc' before passed after)
    (hc : ∀ iter, pc.bodyIter = some iter → iter ≠ .finished ∧ conn.IterConsistent id iter) :
    ∀ iter, pc'.bodyIter = some iter → iter ≠ .finished ∧ conn'.IterConsistent id iter := by
  intro iter hiter
  cases h with
  | moves hconn hmoved _ =>
      subst hconn
      rcases hmoved with hsame | hfresh
      · exact hc iter (hsame ▸ hiter)
      · rw [hfresh iter hiter]
        exact ⟨nofun, nofun⟩
  | takesFirst p _ hfresh _ _ _ =>
      rw [hfresh iter hiter]
      exact ⟨nofun, nofun⟩
  | iterates iter₀ iter' e out read hstep hfin hpc hpc' _ _ _ =>
      rw [hpc'] at hiter
      cases hiter
      exact ⟨hfin, iterStep_consistent conn conn' id iter₀ iter e out hstep (hc iter₀ hpc).2⟩
  | finishes iter₀ e taken _ _ _ hpc' _ _ =>
      subst hpc'
      cases hiter

/-- The stream stays in the table as long as its handler serves. -/
theorem ServingStep.streams (h : ServingStep conn conn' id pc pc' before passed after)
    (hserving : pc'.serving = true) : conn'.streams = conn.streams := by
  cases h with
  | moves hconn _ _ => rw [hconn]
  | takesFirst p htake _ _ _ _ => exact takeItem_streams conn conn' id p htake
  | iterates iter iter' e out read hstep hfin _ _ _ _ _ =>
      rw [iterStep_streams conn conn' id iter iter' e out hstep, if_neg hfin]
  | finishes _ _ _ _ _ _ hpc' _ _ =>
      subst hpc'
      cases hserving

end ServingStep

theorem proxyStep_finishesBody (conn conn' : TunnelConnection) (id : UUID) (pc pc' : ProxyPc)
    (e : ProxyEvent) (h : proxyStep conn id pc e = some (conn', pc'))
    (hfin : finishesBody conn id pc e = true)
    (hc : ∀ iter, pc.bodyIter = some iter → conn.IterConsistent id iter) :
    pc.serving = true ∧ pc' = .ended ∧ (conn'.states id).closed = true ∧
      (conn'.states id).queue.items = [] := by
  have hiter : ∀ iter e' taken out, pc.bodyIter = some iter →
      conn.iterStep id iter e' = some (taken, .finished, out) →
      (taken.states id).closed = true ∧ (taken.states id).queue.items = [] := by
    intro iter e' taken out hpc hstep
    exact iterStep_consistent conn taken id iter .finished e' out hstep (hc iter hpc)
  cases pc with
  | buffering iter parts =>
      cases e with
      | iter e' =>
          obtain ⟨⟨taken, iter', out⟩, hstep, heq⟩ := Option.map_eq_some_iff.mp h
          have hdone : iter' = .finished := by simpa [finishesBody, hstep] using hfin
          subst hdone
          obtain ⟨-, rfl, -, -⟩ := iterStep_finished conn taken id iter e' out hstep
          cases heq
          exact ⟨rfl, rfl, hiter iter e' _ none rfl hstep⟩
      | _ => cases hfin
  | streaming iter =>
      cases e with
      | iter e' =>
          obtain ⟨⟨taken, iter', out⟩, hstep, heq⟩ := Option.map_eq_some_iff.mp h
          have hdone : iter' = .finished := by simpa [finishesBody, hstep] using hfin
          subst hdone
          obtain ⟨-, rfl, -, -⟩ := iterStep_finished conn taken id iter e' out hstep
          cases heq
          exact ⟨rfl, rfl, hiter iter e' taken none rfl hstep⟩
      | _ => cases hfin
  | _ => cases hfin

theorem proxyStep_notServing (conn conn' : TunnelConnection) (id : UUID) (pc pc' : ProxyPc)
    (e : ProxyEvent) (h : proxyStep conn id pc e = some (conn', pc')) (hpc : pc.serving = false) :
    pc'.serving = false := by
  cases pc with
  | wsStarting =>
      cases e <;> cases h <;> try rfl
      unfold startIter
      split <;> rfl
  | bridging iter =>
      cases e <;> try cases h
      · obtain ⟨⟨taken, iter', out⟩, -, heq⟩ := Option.map_eq_some_iff.mp h
        cases heq
        split <;> rfl
      · rfl
      · rfl
  | absent | timedOut | wsOpening | leaving | ended => cases e <;> cases h <;> rfl
  | _ => cases hpc

/-- Nothing that a handler held back is left when its iterator was given up at a `get_task`. -/
theorem proxyStep_leaves (conn conn' : TunnelConnection) (id : UUID) (pc pc' : ProxyPc)
    (e : ProxyEvent) (h : proxyStep conn id pc e = some (conn', pc'))
    (hleaves : leavesGetTask pc e = true ∨ pc = .leaving ∨ pc = .ended) :
    pc' = .leaving ∨ pc' = .ended := by
  rcases hleaves with hleaves | rfl | rfl
  · unfold leavesGetTask at hleaves
    split at hleaves <;> cases hleaves <;> cases h
    · exact .inr rfl
    · exact .inl rfl
    · exact .inl rfl
  · cases e <;> cases h
    exact .inr rfl
  · cases e <;> cases h

end NetworkFileServer.Relay
