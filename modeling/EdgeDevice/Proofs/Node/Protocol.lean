import EdgeDevice.Proofs.Node.Phase
import EdgeDevice.Proofs.Session.Record
import EdgeDevice.Simulation.Counterpart
import Mathlib.Computability.Language

set_option autoImplicit false
set_option relaxedAutoImplicit false

/-!
# The session protocol

Whatever comes in and however it is answered, a node asks its channel in the order of a protocol: a
session is opened, used once it was accepted, and given up before the next one is opened. It opens
one only on finding connectivity.

In a turn the node and its channel go through one of a few exchanges, each of which leads from a
phase of the session to a phase: `Exchange`. The protocol is proved from these.

## Main definitions

* `EdgeDevice.Node.Exchange` — what a node can ask in a turn, and where that leads.
* `EdgeDevice.ProtocolLetter`, `EdgeDevice.round` — the language of the protocol.
* `EdgeDevice.Sight`, `EdgeDevice.Granted` — what happens in a run, and whether the session that was
  opened last was accepted and not given up.

## Main results

* `EdgeDevice.Node.Reaction.exchange` — dealing with an event is one of the exchanges.
* `EdgeDevice.Node.protocol_run` — every run follows the protocol.
-/

namespace EdgeDevice

open Computability

/-! ## Exchanges -/

namespace Node

/-- **The exchanges between a node and its channel** in a turn that deals with an event, while the
network looks as it does: what is asked, and the phases before and after. -/
inductive Exchange (net : Connectivity) :
    SessionPhase → NodeEvent → List SessionAct → SessionPhase → Prop
  | nothing {ph : SessionPhase} {e : NodeEvent} : Exchange net ph e [] ph
  | answered : Exchange net .asked (.session .connected) [] .granted
  | dropped {ph : SessionPhase} {e : NodeEvent} (h : ph ≠ .closed) :
      Exchange net ph e [.abandoned] .closed
  | asked {ctx : SessionContext} (ha : net.available = true)
      (hx : ctx.address = net.address.getD .empty) :
      Exchange net .closed (.timer .connectivityProbe) [.opened ctx .pending] .asked
  | granted {ctx : SessionContext} (ha : net.available = true)
      (hx : ctx.address = net.address.getD .empty) :
      Exchange net .closed (.timer .connectivityProbe) [.opened ctx (.resolved .accepted)] .granted
  | refused {ctx : SessionContext} {o : Outcome} (ha : net.available = true)
      (hx : ctx.address = net.address.getD .empty) (ho : o ≠ .accepted) :
      Exchange net .closed (.timer .connectivityProbe) [.opened ctx (.resolved o), .abandoned]
        .closed
  | confirmed {e : NodeEvent} {a : SessionAct} (ha : a.isSend = true) :
      Exchange net .granted e [a] .granted
  | failed {e : NodeEvent} {a : SessionAct} (ha : a.isSend = true) :
      Exchange net .granted e [a, .abandoned] .closed

variable [RandomSource] {σ : Type} [Channel σ]

/-- **Dealing with an event is one of the exchanges.** -/
theorem Reaction.exchange {net : Connectivity} {n n' : Node (Recorded σ)} {e : NodeEvent}
    (h : Reaction net n e n') (hn : n.awaiting = true → n.state = .connecting) :
    ∃ acts, n'.channel.acts = n.channel.acts ++ acts ∧ Exchange net n.phase e acts n'.phase := by
  have hwait := awaiting_of_ne_connecting hn
  -- A message in a session, whose outcome decides whether the session goes on.
  have hsent : ∀ (m : Node (Recorded σ)) (a : SessionAct) (o : Outcome), n.state = .connected →
      a.isSend = true → m.channel.acts = n.channel.acts ++ [a] →
      ∃ acts, (m.conclude o).value.channel.acts = n.channel.acts ++ acts ∧
        Exchange net n.phase e acts (m.conclude o).value.phase := by
    intro m a o hs ha hm
    rw [acts_conclude, hm, phase_conclude, phase_of_connected hs, List.append_assoc]
    cases o with
    | accepted => exact ⟨_, rfl, .confirmed ha⟩
    | rejected => exact ⟨_, rfl, .failed ha⟩
    | timedOut => exact ⟨_, rfl, .failed ha⟩
  cases h with
  | stale h => exact ⟨[], (List.append_nil _).symm, .nothing⟩
  | unavailable hs hw ha => exact ⟨[], (List.append_nil _).symm, .nothing⟩
  | @resolved o c hs hw ha h =>
    have hacts : c.acts = n.channel.acts ++ [_] := Recorded.acts_of_note h
    rw [acts_conclude, phase_conclude, phase_of_idle (by simp [hs]) hw]
    dsimp only
    rw [hacts, List.append_assoc]
    cases o with
    | accepted => exact ⟨_, rfl, .granted ha rfl⟩
    | rejected => exact ⟨_, rfl, .refused ha rfl (by simp)⟩
    | timedOut => exact ⟨_, rfl, .refused ha rfl (by simp)⟩
  | @pending c hs hw ha h =>
    have hacts : c.acts = n.channel.acts ++ [_] := Recorded.acts_of_note h
    rw [phase_of_idle (by simp [hs]) hw, phase_of_awaiting (by simp [arm, located, hs]) rfl]
    exact ⟨_, hacts, .asked ha rfl⟩
  | expired hw =>
    rw [acts_conclude, phase_conclude, phase_of_awaiting (by simp [hn hw]) hw]
    exact ⟨_, rfl, .dropped (by simp)⟩
  | configured hs h => exact hsent _ _ _ hs rfl (Recorded.acts_of_note h)
  | keptAlive hs hm h => exact hsent _ _ _ hs rfl (Recorded.acts_of_note h)
  | published hs hm hr h => exact hsent _ _ _ hs rfl (Recorded.acts_of_note h)
  | unreadable hs hm hr =>
    rw [acts_conclude, phase_conclude, phase_of_connected hs]
    exact ⟨_, rfl, .dropped (by simp)⟩
  | blinked hs => exact ⟨[], (List.append_nil _).symm, .nothing⟩
  | held h => exact ⟨[], (List.append_nil _).symm, .nothing⟩
  | reconnected hs h =>
    have hw := hwait (by simp [hs])
    rw [phase_of_idle (by simp [hs]) hw, value_beginConnecting]
    refine ⟨[], (List.append_nil _).symm, ?_⟩
    rw [phase_of_idle (by simp) (by exact hw)]
    exact .nothing
  | released h => exact ⟨[], (List.append_nil _).symm, .nothing⟩
  | pressed h hs => exact ⟨[], (List.append_nil _).symm, .nothing⟩
  | chosen h hs => exact ⟨[], (List.append_nil _).symm, .nothing⟩
  | @answered change hw =>
    rw [acts_conclude, phase_conclude, phase_of_awaiting (by simp [hn hw]) hw]
    cases change with
    | connected => exact ⟨[], rfl, .answered⟩
    | disconnected => exact ⟨_, rfl, .dropped (by simp)⟩
  | lost hw hs =>
    rw [phase_of_connected hs]
    refine ⟨[.abandoned], ?_, ?_⟩
    · rw [value_dropSession]
      rfl
    · rw [value_dropSession]
      exact .dropped (by simp)

/-- What is asked in a turn is one of the exchanges. -/
theorem Turn.exchange {t : Turn (Recorded σ)}
    (hn : t.node.awaiting = true → t.node.state = .connecting) :
    Exchange t.net t.node.phase t.event t.acts t.after.phase := by
  obtain ⟨acts, hacts, hx⟩ := t.reaction.exchange hn
  rwa [Turn.acts_eq hacts]

end Node

/-! ## The language of the protocol -/

/-- What the protocol tells apart. -/
inductive ProtocolLetter where
  | opens
  | sends
  | abandons
  deriving DecidableEq

/-- What an act is in the protocol. -/
def SessionAct.letter : SessionAct → ProtocolLetter
  | opened .. => .opens
  | abandoned => .abandons
  | _ => .sends

/-- What is passed on in a session is a message to the protocol. -/
theorem SessionAct.letter_of_isSend {a : SessionAct} (h : a.isSend = true) : a.letter = .sends := by
  cases a <;> simp_all [isSend, letter]

/-- A session from its opening to its end. -/
def round : Language ProtocolLetter := {[.opens]} * {[.sends]}∗ * {[.abandons]}

/-- Sessions, the last of which is not over. -/
def unfinished : Language ProtocolLetter := round∗ * ({[.opens]} * {[.sends]}∗)

/-- Behind whole sessions a session can be opened. -/
theorem append_opens {w : List ProtocolLetter} (h : w ∈ round∗) : w ++ [.opens] ∈ unfinished :=
  Language.append_mem_mul h (Language.append_mem_mul (Set.mem_singleton _)
    (Language.nil_mem_kstar _))

/-- In a session that is not over a message can follow. -/
theorem append_sends {w : List ProtocolLetter} (h : w ∈ unfinished) :
    w ++ [.sends] ∈ unfinished := by
  obtain ⟨u, hu, x, hx, rfl⟩ := Language.mem_mul.1 h
  obtain ⟨o, ho, v, hv, rfl⟩ := Language.mem_mul.1 hx
  have hle : ({[.sends]}∗ * {[.sends]} : Language ProtocolLetter) ≤ {[.sends]}∗ :=
    kstar_mul_le_kstar
  have hmore : v ++ [.sends] ∈ ({[.sends]}∗ : Language ProtocolLetter) :=
    hle (Language.append_mem_mul hv (Set.mem_singleton _))
  rw [List.append_assoc, List.append_assoc]
  exact Language.append_mem_mul hu (Language.append_mem_mul ho hmore)

/-- A session that is not over can be given up, and then all sessions are whole. -/
theorem append_abandons {w : List ProtocolLetter} (h : w ∈ unfinished) :
    w ++ [.abandons] ∈ round∗ := by
  obtain ⟨u, hu, x, hx, rfl⟩ := Language.mem_mul.1 h
  have hle : round∗ * round ≤ round∗ := kstar_mul_le_kstar
  have hround : x ++ [.abandons] ∈ round := Language.append_mem_mul hx (Set.mem_singleton _)
  rw [List.append_assoc]
  exact hle (Language.append_mem_mul hu hround)

/-- What can have been asked by the time a phase is reached. -/
def SessionPhase.language : SessionPhase → Language ProtocolLetter
  | closed => round∗
  | asked => unfinished
  | granted => unfinished

/-- Whatever can have been asked can be the beginning of sessions that are all over. -/
theorem SessionPhase.exists_prefix {ph : SessionPhase} {w : List ProtocolLetter}
    (h : w ∈ ph.language) : ∃ v ∈ round∗, w <+: v := by
  cases ph with
  | closed => exact ⟨w, h, List.prefix_rfl⟩
  | asked => exact ⟨w ++ [.abandons], append_abandons h, List.prefix_append ..⟩
  | granted => exact ⟨w ++ [.abandons], append_abandons h, List.prefix_append ..⟩

namespace Node.Exchange

variable {net : Connectivity} {ph ph' : SessionPhase} {e : NodeEvent} {acts : List SessionAct}

/-- **An exchange keeps to the protocol**: it leads from the language of one phase to that of the
next. -/
theorem mem_language (h : Exchange net ph e acts ph') {w : List ProtocolLetter}
    (hw : w ∈ ph.language) : w ++ acts.map SessionAct.letter ∈ ph'.language := by
  cases h with
  | nothing => simpa using hw
  | answered =>
    rw [List.map_nil, List.append_nil]
    exact hw
  | dropped h =>
    cases ph with
    | closed => exact absurd rfl h
    | asked => exact append_abandons hw
    | granted => exact append_abandons hw
  | asked ha hx => exact append_opens hw
  | granted ha hx => exact append_opens hw
  | refused ha hx ho =>
    have := append_abandons (append_opens hw)
    rwa [List.append_assoc] at this
  | confirmed ha =>
    rw [List.map_singleton, SessionAct.letter_of_isSend ha]
    exact append_sends hw
  | failed ha =>
    have := append_abandons (append_sends hw)
    rw [List.append_assoc] at this
    rwa [List.map_cons, SessionAct.letter_of_isSend ha]

/-- A session is opened only on finding connectivity, under the address that was found with it. -/
theorem available_of_opened (h : Exchange net ph e acts ph') {ctx : SessionContext}
    {progress : Progress} (ho : .opened ctx progress ∈ acts) :
    net.available = true ∧ ctx.address = net.address.getD .empty := by
  cases h with
  | nothing => exact absurd ho List.not_mem_nil
  | answered => exact absurd ho List.not_mem_nil
  | dropped => simp at ho
  | asked ha hx =>
    simp only [List.mem_singleton, SessionAct.opened.injEq] at ho
    exact ⟨ha, ho.1 ▸ hx⟩
  | granted ha hx =>
    simp only [List.mem_singleton, SessionAct.opened.injEq] at ho
    exact ⟨ha, ho.1 ▸ hx⟩
  | refused ha hx _ =>
    simp only [List.mem_cons, SessionAct.opened.injEq, reduceCtorEq, List.not_mem_nil, or_false]
      at ho
    exact ⟨ha, ho.1 ▸ hx⟩
  | confirmed ha =>
    obtain rfl := List.mem_singleton.1 ho
    simp [SessionAct.isSend] at ha
  | failed ha =>
    simp only [List.mem_cons, reduceCtorEq, List.not_mem_nil, or_false] at ho
    obtain rfl := ho
    simp [SessionAct.isSend] at ha

end Node.Exchange

/-! ## What happens in a run -/

/-- What happens in a run: an event is dealt with, or the channel is asked something. -/
inductive Sight where
  | dealt (e : NodeEvent)
  | act (a : SessionAct)

/-- Whether a session begins or ends. -/
def Sight.isBoundary : Sight → Bool
  | act (.opened ..) => true
  | act .abandoned => true
  | _ => false

/-- A message neither begins nor ends a session. -/
theorem Sight.isBoundary_of_isSend {a : SessionAct} (h : a.isSend = true) :
    (act a).isBoundary = false := by
  cases a <;> simp_all [SessionAct.isSend, isBoundary]

/-- The session that was opened last is not given up; `progress` is what its opening came to, and
`since` is what has happened since. -/
def Current (trace : List Sight) (progress : Progress) (since : List Sight) : Prop :=
  (∃ before ctx, trace = before ++ .act (.opened ctx progress) :: since) ∧
    ∀ s ∈ since, s.isBoundary = false

/-- **A session is granted**: it is not given up, and it was accepted at once, or it was left
pending and the change that grants it was dealt with. -/
def Granted (trace : List Sight) : Prop :=
  ∃ progress since, Current trace progress since ∧
    (progress = .resolved .accepted ∨
      progress = .pending ∧ .dealt (.session .connected) ∈ since)

/-- Only a session that is granted is used. -/
def Orderly (trace : List Sight) : Prop :=
  ∀ before a after, trace = before ++ .act a :: after → a.isSend = true → Granted before

/-- The session that was just opened is current, and nothing has happened since. -/
theorem current_opened (trace : List Sight) (ctx : SessionContext) (progress : Progress) :
    Current (trace ++ [.act (.opened ctx progress)]) progress [] :=
  ⟨⟨trace, ctx, rfl⟩, fun _ hs => absurd hs List.not_mem_nil⟩

/-- A session stays current, whatever happens that begins or ends none. -/
theorem Current.push {trace since : List Sight} {progress : Progress}
    (h : Current trace progress since) {s : Sight} (hs : s.isBoundary = false) :
    Current (trace ++ [s]) progress (since ++ [s]) := by
  obtain ⟨⟨before, ctx, rfl⟩, hsince⟩ := h
  refine ⟨⟨before, ctx, by simp⟩, ?_⟩
  intro s' hs'
  rcases List.mem_append.1 hs' with hs' | hs'
  · exact hsince s' hs'
  · rwa [List.mem_singleton.1 hs']

/-- A session stays granted, whatever happens that begins or ends none. -/
theorem Granted.push {trace : List Sight} (h : Granted trace) {s : Sight}
    (hs : s.isBoundary = false) : Granted (trace ++ [s]) := by
  obtain ⟨progress, since, hc, hp⟩ := h
  refine ⟨progress, since ++ [s], hc.push hs, ?_⟩
  rcases hp with hp | ⟨hp, hd⟩
  · exact .inl hp
  · exact .inr ⟨hp, List.mem_append_left _ hd⟩

/-- A run stays orderly with one more act, if a message finds its session granted. -/
theorem Orderly.push {trace : List Sight} (h : Orderly trace) {s : Sight}
    (hs : ∀ a, s = .act a → a.isSend = true → Granted trace) : Orderly (trace ++ [s]) := by
  have hall := forall_split_concat
    (P := fun before s => ∀ a, s = .act a → a.isSend = true → Granted before)
    (fun before _ after ht a ha => h before a after (ha ▸ ht)) hs
  exact fun before a after ht => hall before _ after ht a rfl

/-- What a phase says about what has happened. -/
def SessionPhase.Fits (trace : List Sight) : SessionPhase → Prop
  | closed => True
  | asked => ∃ since, Current trace .pending since
  | granted => Granted trace

/-- A phase fits still, whatever happens that begins or ends no session. -/
theorem SessionPhase.Fits.push {trace : List Sight} {ph : SessionPhase} (h : ph.Fits trace)
    {s : Sight} (hs : s.isBoundary = false) : ph.Fits (trace ++ [s]) := by
  cases ph with
  | closed => trivial
  | asked =>
    obtain ⟨since, hc⟩ := h
    exact ⟨since ++ [s], hc.push hs⟩
  | granted => exact Granted.push h hs

namespace Node

section

variable [RandomSource] {σ : Type} [Channel σ]

/-- What happens in a turn. -/
def Turn.sights (t : Turn (Recorded σ)) : List Sight := .dealt t.event :: t.acts.map .act

omit [RandomSource] in
/-- **An exchange keeps to the order**: it uses a session only in the phase in which one is
granted. -/
theorem Exchange.orderly {net : Connectivity} {ph ph' : SessionPhase} {e : NodeEvent}
    {acts : List SessionAct} (h : Exchange net ph e acts ph') {trace : List Sight}
    (hf : ph.Fits trace) (ho : Orderly trace) :
    ph'.Fits (trace ++ .dealt e :: acts.map .act) ∧
      Orderly (trace ++ .dealt e :: acts.map .act) := by
  have hf' : ph.Fits (trace ++ [.dealt e]) := hf.push rfl
  have ho' : Orderly (trace ++ [.dealt e]) := ho.push (by simp)
  have hsplit : ∀ ss : List Sight, trace ++ .dealt e :: ss = trace ++ [.dealt e] ++ ss := by simp
  rw [hsplit]
  cases h with
  | nothing => simpa using ⟨hf', ho'⟩
  | answered =>
    rw [List.map_nil, List.append_nil]
    refine ⟨?_, ho'⟩
    obtain ⟨since, hc⟩ := hf
    exact ⟨.pending, _, hc.push rfl, .inr ⟨rfl, by simp⟩⟩
  | dropped => exact ⟨trivial, ho'.push (by simp [SessionAct.isSend])⟩
  | asked => exact ⟨⟨[], current_opened ..⟩, ho'.push (by simp [SessionAct.isSend])⟩
  | granted =>
    exact ⟨⟨_, _, current_opened .., .inl rfl⟩, ho'.push (by simp [SessionAct.isSend])⟩
  | @refused ctx o =>
    have := (ho'.push (s := .act (.opened ctx (.resolved o))) (by simp [SessionAct.isSend])).push
      (s := .act .abandoned) (by simp [SessionAct.isSend])
    rw [List.append_assoc] at this
    exact ⟨trivial, this⟩
  | confirmed ha => exact ⟨hf'.push (Sight.isBoundary_of_isSend ha), ho'.push fun _ _ _ => hf'⟩
  | @failed _ a ha =>
    have := (ho'.push (s := .act a) fun _ _ _ => hf').push (s := .act .abandoned)
      (by simp [SessionAct.isSend])
    rw [List.append_assoc] at this
    exact ⟨trivial, this⟩

/-! ## Every run follows the protocol -/

/-- What happens in a run, in order. -/
def trace (history : List (Turn (Recorded σ))) : List Sight := history.flatMap Turn.sights

/-- What is known of a node and of the turns that led to it. -/
structure Follows (history : List (Turn (Recorded σ))) (n : Node (Recorded σ)) : Prop where
  connecting_of_awaiting : n.awaiting = true → n.state = .connecting
  asked : (history.flatMap Turn.acts).map SessionAct.letter ∈ n.phase.language
  fits : n.phase.Fits (trace history)
  orderly : Orderly (trace history)
  available : ∀ t ∈ history, ∀ ctx progress, SessionAct.opened ctx progress ∈ t.acts →
    t.net.available = true ∧ ctx.address = t.net.address.getD .empty

/-- A node that was just started has asked for nothing. -/
theorem follows_start {n : Node (Recorded σ)} (hw : n.awaiting = false) (i : Instant) :
    Follows [] (n.start i).value := by
  have hs : (n.start i).value.state = .connecting := by rw [value_start]
  have hw' : (n.start i).value.awaiting = false := by
    rw [value_start]
    exact hw
  have hph : (n.start i).value.phase = .closed := phase_of_idle (by simp [hs]) hw'
  refine ⟨fun _ => hs, ?_, ?_, ?_, ?_⟩
  · rw [hph]
    exact Language.nil_mem_kstar _
  · rw [hph]
    trivial
  · intro before a after ht
    simp [trace] at ht
  · intro t ht
    exact absurd ht List.not_mem_nil

/-- What is known of a run is a matter of the state and of the wait for the session. -/
theorem Follows.of_eq {history : List (Turn (Recorded σ))} {n n' : Node (Recorded σ)}
    (h : Follows history n) (hs : n'.state = n.state) (hw : n'.awaiting = n.awaiting) :
    Follows history n' := by
  have hph := phase_congr hs hw
  refine ⟨?_, ?_, ?_, h.orderly, h.available⟩
  · rw [hs, hw]
    exact h.connecting_of_awaiting
  · rw [hph]
    exact h.asked
  · rw [hph]
    exact h.fits

/-- What is known of a run stays known with one more turn. -/
theorem Follows.turn {history : List (Turn (Recorded σ))} {t : Turn (Recorded σ)}
    (h : Follows history t.node) : Follows (history ++ [t]) t.after := by
  have hx := Turn.exchange h.connecting_of_awaiting
  have htrace : trace (history ++ [t]) = trace history ++ t.sights := by
    rw [trace, List.flatMap_append, List.flatMap_singleton, trace]
  have ho := hx.orderly h.fits h.orderly
  refine ⟨t.reaction.connecting_of_awaiting h.connecting_of_awaiting, ?_, htrace ▸ ho.1,
    htrace ▸ ho.2, ?_⟩
  · rw [List.flatMap_append, List.flatMap_singleton, List.map_append]
    exact hx.mem_language h.asked
  · intro t' ht' ctx progress hopened
    rcases List.mem_append.1 ht' with ht' | ht'
    · exact h.available t' ht' ctx progress hopened
    · rw [List.mem_singleton.1 ht'] at hopened ⊢
      exact hx.available_of_opened hopened

/-- What is known of a run stays known with every step. -/
theorem follows_invariant :
    Invariant (fun r r' : Recorded σ => r'.acts = r.acts) Follows where
  post _ h _ := h.of_eq rfl rfl
  command _ _ h := h.of_eq rfl rfl
  outside h _ := h.of_eq rfl rfl
  tick _ h := h.of_eq rfl rfl
  take h hi := by
    cases hi with
    | full => exact h
    | change => exact h.of_eq rfl rfl
    | timer => exact h.of_eq rfl rfl
    | nothing => exact h.of_eq rfl rfl
  turn h _ := Follows.turn (h.of_eq rfl rfl)

/-- **Every run of a node follows the session protocol.** What the channel is asked is the beginning
of a row of sessions, each opened, used and given up before the next one; a session is used only
while it is granted; and it is opened only in a turn that found connectivity, under the address that
was found with it. -/
theorem protocol_run [Json.Writer] {identity : Identity} {channel : σ} {settings : NodeSettings}
    {n : Node (Recorded σ)} (hn : create identity ⟨channel, []⟩ settings = .ok n) (i : Instant)
    (calls : List (Call σ)) :
    (∃ w ∈ round∗, ((n.start i).value.run
      (calls.map (Call.lift Recorded.onChannel))).channel.acts.map SessionAct.letter <+: w) ∧
      Orderly (trace ((n.start i).value.history (calls.map (Call.lift Recorded.onChannel)))) ∧
      ∀ t ∈ (n.start i).value.history (calls.map (Call.lift Recorded.onChannel)), ∀ ctx progress,
        SessionAct.opened ctx progress ∈ t.acts →
          t.net.available = true ∧ ctx.address = t.net.address.getD .empty := by
  obtain ⟨hch, -, -, hw⟩ := idle_of_create hn
  have h := follows_invariant.run (follows_start hw i) fun _ => keeps_acts calls
  have hacts : (n.start i).value.channel.acts = [] := by
    rw [value_start]
    exact congrArg Recorded.acts hch
  rw [List.nil_append] at h
  refine ⟨?_, h.orderly, h.available⟩
  rw [acts_run, hacts, List.nil_append]
  exact SessionPhase.exists_prefix h.asked

end

/-- What the thermostat opens its session with. -/
def firstContext : SessionContext where
  identity := thermostat
  address := ⟨"fd00::212:4b00", by decide⟩
  period := 30

/-- Polls in the tenth and in the fortieth second. -/
def twoPolls : List (Call ScriptedChannel) :=
  [.poll (.ofSeconds 10) fun _ => ⟨true, some firstContext.address⟩,
    .poll (.ofSeconds 40) fun _ => ⟨true, some firstContext.address⟩]

/-- A thermostat finds connectivity, opens a session under the address that was found, and keeps it
alive after half a minute. -/
theorem protocol_run_thermostat :
    ∃ n : Node (Recorded ScriptedChannel), create thermostat ⟨{}, []⟩ {} = .ok n ∧
      ((n.start .start).value.run (twoPolls.map (Call.lift Recorded.onChannel))).channel.acts =
        [.opened firstContext (.resolved .accepted), .keptAlive firstContext .accepted] ∧
      (∃ w ∈ round∗, ((n.start .start).value.run
        (twoPolls.map (Call.lift Recorded.onChannel))).channel.acts.map SessionAct.letter <+: w) ∧
      Orderly (trace ((n.start .start).value.history
        (twoPolls.map (Call.lift Recorded.onChannel)))) := by
  obtain ⟨n, hn⟩ : ∃ n : Node (Recorded ScriptedChannel),
      create thermostat ⟨{}, []⟩ {} = .ok n := ⟨_, rfl⟩
  obtain ⟨hletters, horder, -⟩ := protocol_run hn .start twoPolls
  refine ⟨n, hn, ?_, hletters, horder⟩
  obtain rfl := Except.ok.inj hn
  rfl

end Node

end EdgeDevice
