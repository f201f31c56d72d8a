import Mathlib
import EdgeDevice.Proofs.Mqtt.Conduct
import EdgeDevice.Simulation.Wire

set_option autoImplicit false
set_option relaxedAutoImplicit false

/-!
# The history of a client

What was asked of a client one thing after the other, with what came of it, is its history. The
history tells whether there is a session: the broker granted the one that was asked for last, and it
is not over since.

## Main definitions

* `EdgeDevice.Mqtt.Errand` — a call of a client, and what becomes of its link before.
* `EdgeDevice.Mqtt.Client.run`, `EdgeDevice.Mqtt.Client.history` — a client that is asked one thing
  after another, and its history.
* `EdgeDevice.Mqtt.Granted` — there is a session, as the history tells.
* `EdgeDevice.Mqtt.Client.Steady` — a call that fails changes nothing of session and connection.

## Main results

* `EdgeDevice.Mqtt.granted_concat` — how one more call bears on whether there is a session.
* `EdgeDevice.Mqtt.Client.tracks_run` — the client knows what its history tells.
* `EdgeDevice.Mqtt.Client.session_run` — session and connection in every run.
-/

namespace EdgeDevice.Mqtt

/-! ## Histories -/

/-- Whether a call is of use in a session only. -/
def Call.needsSession : Call → Bool
  | publish .. => true
  | ping => true
  | _ => false

namespace Deed

/-- Whether a session was asked for. -/
def isConnect : Deed → Bool
  | connect _ => true
  | _ => false

/-- Whether a session is over by that: the broker refused it, the connection was lost, or the client
gave it up. -/
def endsSession : Deed → Bool
  | disconnect => true
  | poll (.ok (some (.refused _))) => true
  | poll (.ok (some .disconnected)) => true
  | _ => false

/-- Why it failed, if it did. -/
def failure : Deed → Option NetError
  | connect (.error e) => some e
  | publish (.error e) => some e
  | ping (.error e) => some e
  | poll (.error e) => some e
  | _ => none

end Deed

/-- **There is a session, as the history tells.** A poll found it granted after it was asked for the
last time, and nothing ended it after that. -/
def Granted (h : List Deed) : Prop :=
  ∃ early r before after,
    h = early ++ .connect r :: (before ++ .poll (.ok (some .connected)) :: after) ∧
    (∀ d ∈ before ++ after, d.isConnect = false) ∧ ∀ d ∈ after, d.endsSession = false

/-- Where a session was asked for, it was asked for a last time. -/
theorem exists_last_connect {h : List Deed} (hc : ∃ r, .connect r ∈ h) :
    ∃ early r before, h = early ++ .connect r :: before ∧ ∀ d ∈ before, d.isConnect = false := by
  induction h using List.reverseRecOn with
  | nil => simp at hc
  | append_singleton h d ih =>
    cases hd : d.isConnect with
    | true =>
      cases d with
      | connect r => exact ⟨h, r, [], rfl, by simp⟩
      | _ => cases hd
    | false =>
      obtain ⟨r, hr⟩ := hc
      rcases List.mem_append.1 hr with hr | hr
      · obtain ⟨early, r, before, rfl, hb⟩ := ih ⟨r, hr⟩
        refine ⟨early, r, before ++ [d], by simp, ?_⟩
        intro d' hd'
        rcases List.mem_append.1 hd' with hd' | hd'
        · exact hb d' hd'
        · rwa [List.mem_singleton.1 hd']
      · obtain rfl := List.mem_singleton.1 hr
        cases hd

/-- **How one more call bears on whether there is a session.** -/
theorem granted_concat {h : List Deed} {d : Deed} :
    Granted (h ++ [d]) ↔
      (d = .poll (.ok (some .connected)) ∧ ∃ r, .connect r ∈ h) ∨
        Granted h ∧ d.isConnect = false ∧ d.endsSession = false := by
  constructor
  · rintro ⟨early, r, before, after, he, hc, hs⟩
    -- Nothing follows the grant, which is the last deed then, or the last deed follows it.
    rcases List.eq_nil_or_concat after with rfl | ⟨after, d', rfl⟩
    · have he' : h ++ [d] = (early ++ .connect r :: before) ++ [.poll (.ok (some .connected))] := by
        rw [he]
        simp
      obtain ⟨rfl, hd⟩ := List.append_inj' he' rfl
      exact .inl ⟨(List.cons.inj hd).1, r, by simp⟩
    · have he' : h ++ [d] =
          (early ++ .connect r :: (before ++ .poll (.ok (some .connected)) :: after)) ++ [d'] := by
        rw [he]
        simp
      obtain ⟨rfl, hd⟩ := List.append_inj' he' rfl
      obtain ⟨rfl, -⟩ := List.cons.inj hd
      refine .inr ⟨⟨early, r, before, after, rfl, ?_, ?_⟩, hc d (by simp), hs d (by simp)⟩
      · intro d' hd'
        rw [List.concat_eq_append, ← List.append_assoc] at hc
        exact hc d' (List.mem_append_left _ hd')
      · intro d' hd'
        rw [List.concat_eq_append] at hs
        exact hs d' (List.mem_append_left _ hd')
  · rintro (⟨rfl, hc⟩ | ⟨⟨early, r, before, after, rfl, hc, hs⟩, hdc, hds⟩)
    · obtain ⟨early, r, before, rfl, hb⟩ := exists_last_connect hc
      exact ⟨early, r, before, [], by simp, by simpa using hb, by simp⟩
    · refine ⟨early, r, before, after ++ [d], by simp, ?_, ?_⟩
      · rw [← List.append_assoc]
        exact List.forall_mem_append.2 ⟨hc, List.forall_mem_singleton.2 hdc⟩
      · exact List.forall_mem_append.2 ⟨hs, List.forall_mem_singleton.2 hds⟩

/-! ## Runs -/

/-- A call of a client, and what becomes of the link between the call before and this one. -/
structure Errand (τ : Type) where
  meanwhile : τ → τ := id
  call : Call

namespace Client

variable {τ : Type}

/-- The client when the call is made. -/
def upon (c : Client τ) (e : Errand τ) : Client τ := { c with link := e.meanwhile c.link }

variable [DialLink τ]

/-- The client after it was asked one thing after another. -/
def run (c : Client τ) : List (Errand τ) → Client τ
  | [] => c
  | e :: es => ((c.upon e).perform e.call).2.run es

/-- What a client was asked, one thing after another, and what came of it. -/
def history (c : Client τ) : List (Errand τ) → List Deed
  | [] => []
  | e :: es => ((c.upon e).perform e.call).1 :: ((c.upon e).perform e.call).2.history es

/-- A client knows what its history tells. -/
structure Tracks (c : Client τ) (h : List Deed) : Prop where
  tidy : c.Tidy
  asked : c.isOpen = true → ∃ r, .connect r ∈ h
  granted : c.session = .connected ↔ Granted h

variable {c c' : Client τ} {h : List Deed} {d : Deed}

omit [DialLink τ] in
/-- What leaves session and connection alone says nothing about the session. -/
theorem Tracks.of_kept (ht : Tracks c h) (hs : c'.session = c.session)
    (ho : c'.isOpen = c.isOpen) (hc : d.isConnect = false) (he : d.endsSession = false)
    (hd : d ≠ .poll (.ok (some .connected))) : Tracks c' (h ++ [d]) where
  tidy := by
    unfold Tidy
    rw [hs, ho]
    exact ht.tidy
  asked hopen := by
    obtain ⟨r, hr⟩ := ht.asked (ho ▸ hopen)
    exact ⟨r, List.mem_append_left _ hr⟩
  granted := by
    rw [hs, ht.granted, granted_concat]
    exact ⟨fun hg => .inr ⟨hg, hc, he⟩, fun hg => hg.elim (fun h' => absurd h'.1 hd) (·.1)⟩

omit [DialLink τ] in
/-- What leaves no session leaves none in the history. -/
theorem Tracks.of_over (htidy : c'.Tidy) (hs : c'.session ≠ .connected)
    (hopen : c'.isOpen = true → d.isConnect = true)
    (hd : d.isConnect = true ∨ d.endsSession = true) : Tracks c' (h ++ [d]) where
  tidy := htidy
  asked ho := by
    cases d with
    | connect r => exact ⟨r, by simp⟩
    | _ => cases hopen ho
  granted := by
    refine ⟨fun hg => absurd hg hs, fun hg => ?_⟩
    rcases granted_concat.1 hg with ⟨rfl, -⟩ | ⟨-, hc, he⟩
    · rcases hd with hd | hd <;> cases hd
    · rw [hc, he] at hd
      rcases hd with hd | hd <;> cases hd

/-- One call more. -/
theorem Tracks.perform (ht : Tracks c h) (call : Call) :
    Tracks (c.perform call).2 (h ++ [(c.perform call).1]) := by
  cases call with
  | connect =>
    show Tracks c.connect.2 (h ++ [.connect c.connect.1])
    rcases c.connect_cases with ⟨-, hs, ho⟩ | ⟨-, hs, ho⟩
    · exact .of_over (by simp [Tidy, hs, ho]) (by simp [hs]) (fun _ => rfl) (.inl rfl)
    · exact .of_over (by simp [Tidy, hs, ho]) (by simp [hs]) (fun _ => rfl) (.inl rfl)
  | publish topic payload qos =>
    obtain ⟨hs, ho⟩ := c.publish_frame topic payload qos
    exact ht.of_kept hs ho rfl rfl (by rintro ⟨⟩)
  | ping =>
    obtain ⟨hs, ho⟩ := c.ping_frame
    exact ht.of_kept hs ho rfl rfl (by rintro ⟨⟩)
  | disconnect =>
    exact .of_over (by simp [Tidy, Client.perform]) (by simp [Client.perform])
      (by simp [Client.perform]) (.inr rfl)
  | poll =>
    show Tracks c.poll.2 (h ++ [.poll c.poll.1])
    have hr := BrokerSession.reports_poll c
    generalize c.poll.1 = r at hr ⊢
    rcases r with e | _ | n
    · obtain ⟨hs, ho⟩ := hr
      exact ht.of_kept hs ho rfl rfl (by rintro ⟨⟩)
    · obtain ⟨hs, ho⟩ := hr
      exact ht.of_kept hs ho rfl rfl (by rintro ⟨⟩)
    · cases n with
      | connected =>
        -- Only over an open link a grant is heard, and only a request has opened one.
        obtain ⟨hopen, hs, ho⟩ := hr
        exact {
          tidy := by simp [Tidy, hs, ho]
          asked := fun _ => (ht.asked hopen).imp fun r hr => List.mem_append_left _ hr
          granted := by simp [hs, granted_concat, ht.asked hopen] }
      | refused reason =>
        obtain ⟨-, hs, ho⟩ := hr
        exact .of_over (by simp [Tidy, hs, ho]) (by simp [hs]) (by simp [ho]) (.inr rfl)
      | disconnected =>
        obtain ⟨-, hs, ho⟩ := hr
        exact .of_over (by simp [Tidy, hs, ho]) (by simp [hs]) (by simp [ho]) (.inr rfl)
      | published p =>
        obtain ⟨hs, ho⟩ := hr
        exact ht.of_kept hs ho rfl rfl (by rintro ⟨⟩)

/-- A client knows what its history tells, after every run. -/
theorem tracks_run (ht : Tracks c h) (es : List (Errand τ)) :
    Tracks (c.run es) (h ++ c.history es) := by
  induction es generalizing c h with
  | nil => rwa [run, history, List.append_nil]
  | cons e es ih =>
    have hupon : Tracks (c.upon e) h := ⟨ht.tidy, ht.asked, ht.granted⟩
    have := ih (hupon.perform e.call)
    rwa [List.append_assoc] at this

omit [DialLink τ] in
/-- A client that was just made knows that nothing has happened. -/
theorem tracks_of {link : τ} {broker : String} {options : Options}
    (hc : Client.of link broker options = .ok c) : Tracks c [] := by
  unfold Client.of at hc
  split at hc
  · obtain rfl := Except.ok.inj hc
    exact ⟨by simp [Tidy], by simp, by simp [Granted]⟩
  · cases hc

/-- A call is steady if it comes to nothing where it is of use in a session only and there is none,
and if, unless it asks for a session, it leaves session and connection alone when it fails. -/
structure Steady (c : Client τ) (call : Call) : Prop where
  refused : call.needsSession = true → c.isConnected = false →
    (c.perform call).1.failure = some .notOpen ∧ (c.perform call).2 = c ∧ c.acts call = []
  kept : call ≠ .connect → ∀ e, (c.perform call).1.failure = some e →
    (c.perform call).2.session = c.session ∧ (c.perform call).2.isOpen = c.isOpen ∧
      ∀ a ∈ c.acts call, a.isSwitch = false

/-- Without a session a call that is of use in a session only comes to nothing. -/
theorem perform_of_not_isConnected {call : Call} (hcall : call.needsSession = true)
    (hc : c.isConnected = false) :
    (c.perform call).1.failure = some .notOpen ∧ (c.perform call).2 = c := by
  cases call with
  | publish topic payload qos =>
    simp only [perform, publish, hc]
    exact ⟨rfl, rfl⟩
  | ping =>
    simp only [perform, ping, hc]
    exact ⟨rfl, rfl⟩
  | _ => cases hcall

/-- Every call is steady. -/
theorem steady (c : Client τ) (call : Call) : c.Steady call where
  refused hcall hc := by
    obtain ⟨hf, hp⟩ := perform_of_not_isConnected hcall hc
    have htapped := (perform_of_not_isConnected (c := c.tapped []) hcall hc).2
    refine ⟨hf, hp, ?_⟩
    rw [acts, htapped]
    rfl
  kept hcall e he := by
    have hacts := (c.tapped_perform call).2
    cases call with
    | connect => exact absurd rfl hcall
    | publish topic payload qos =>
      obtain ⟨hs, ho⟩ := c.publish_frame topic payload qos
      exact ⟨hs, ho, fun a ha => LinkAct.isSwitch_of_isWrite (hacts a ha)⟩
    | ping =>
      obtain ⟨hs, ho⟩ := c.ping_frame
      exact ⟨hs, ho, fun a ha => LinkAct.isSwitch_of_isWrite (hacts a ha)⟩
    | disconnect => cases he
    | poll =>
      have hr := BrokerSession.reports_poll c
      have hfailed : c.poll.1 = .error e := by
        simp only [perform] at he
        cases hp : c.poll.1 with
        | error e' =>
          rw [hp] at he
          exact congrArg Except.error (Option.some.inj he)
        | ok n =>
          rw [hp] at he
          cases he
      rw [hfailed] at hr
      obtain ⟨hs, ho⟩ := hr
      obtain ⟨reads, hreads, hacts⟩ := hacts
      refine ⟨hs, ho, ?_⟩
      rw [hacts, show (c.perform .poll).2 = c.poll.2 from rfl, parting_of_isOpen_eq ho,
        List.append_nil]
      exact fun a ha => LinkAct.isSwitch_of_isRead (hreads a ha)

/-- **Session and connection in every run of a client**, however its link behaves. A connection is
open exactly while there is a session or one is asked for; there is a session exactly if the history
tells so; and every further call is steady. -/
theorem session_run {link : τ} {broker : String} {options : Options}
    (hc : Client.of link broker options = .ok c) (es : List (Errand τ)) :
    (c.run es).Tidy ∧ ((c.run es).isConnected = true ↔ Granted (c.history es)) ∧
      ∀ e : Errand τ, ((c.run es).upon e).Steady e.call := by
  have ht := tracks_run (tracks_of hc) es
  refine ⟨ht.tidy, ?_, fun e => steady _ _⟩
  rw [← List.nil_append (c.history es), ← ht.granted]
  exact beq_iff_eq

/-- A conversation with a broker that grants a session, hears nothing of the client, and grants the
session once more after the client asked for it again. -/
def renewal : List (Errand Wire) :=
  let granted : Wire → Wire := fun w => { w with inbound := [.chunk [0x20], .chunk [2, 0, 0]] }
  [{ call := .connect }, { call := .poll }, { meanwhile := granted, call := .poll },
    { meanwhile := fun w => { w with writesLeft := some 0 }, call := .ping },
    { meanwhile := fun w => { w with writesLeft := none }, call := .connect },
    { meanwhile := granted, call := .poll }]

/-- After the conversation there is a session. -/
theorem granted_renewal :
    let options : Options := ⟨⟨"button", by decide⟩, 60, true⟩
    let c : Client Wire := ⟨{}, ⟨"fd00::1", by decide⟩, options, false, .idle⟩
    Client.of ({} : Wire) "fd00::1" options = .ok c ∧
      (c.run renewal).isConnected = true ∧ Granted (c.history renewal) := by
  intro options c
  have hc : Client.of ({} : Wire) "fd00::1" options = .ok c := rfl
  have hconnected : (c.run renewal).isConnected = true := by cbv
  exact ⟨hc, hconnected, (session_run hc renewal).2.1.1 hconnected⟩

end Client

end EdgeDevice.Mqtt
