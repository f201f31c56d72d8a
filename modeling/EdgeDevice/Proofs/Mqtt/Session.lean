import EdgeDevice.Session.Broker

set_option autoImplicit false
set_option relaxedAutoImplicit false

/-!
# The session of a client

What each operation of a client does to its session and to its connection, however the link behaves.
Only asking for a session, giving it up, and a report of the broker change either of them, and the
two go together: a connection is open exactly while there is a session or one is asked for.

## Main definitions

* `EdgeDevice.Mqtt.Client.Tidy` — a connection is open exactly while there is use for it.
* `EdgeDevice.BrokerSession.Reports` — what a report, or the lack of one, says about a client.

## Main results

* `EdgeDevice.Mqtt.Client.connect_cases` — asking for a session leaves one asked for, or none.
* `EdgeDevice.BrokerSession.reports_nextChange` — a change that is found has happened.
-/

namespace EdgeDevice

namespace Mqtt.Client

variable {τ : Type} [DialLink τ]

/-- A connection is open exactly while there is a session or one is asked for. -/
def Tidy (c : Client τ) : Prop := c.isOpen = true ↔ c.session ≠ .idle

/-- A client that gives up its connection has no session. -/
@[simp] theorem session_drop (c : Client τ) : c.drop.session = .idle := rfl

/-- A client that gives up its connection has none. -/
@[simp] theorem isOpen_drop (c : Client τ) : c.drop.isOpen = false := rfl

/-- A client that gives up its session has none. -/
@[simp] theorem session_disconnect (c : Client τ) : c.disconnect.session = .idle := rfl

/-- A client that gives up its session has no connection. -/
@[simp] theorem isOpen_disconnect (c : Client τ) : c.disconnect.isOpen = false := rfl

/-- Sending changes neither the session nor the connection, whether it succeeds or not. -/
theorem send_frame (c : Client τ) (packet : List Bytes) :
    (c.send packet).2.session = c.session ∧ (c.send packet).2.isOpen = c.isOpen := by
  unfold send
  split
  · split <;> exact ⟨rfl, rfl⟩
  · exact ⟨rfl, rfl⟩

/-- Publishing changes neither the session nor the connection, whether it succeeds or not. -/
theorem publish_frame (c : Client τ) (topic : String) (payload : Bytes) (qos : Qos) :
    (c.publish topic payload qos).2.session = c.session ∧
      (c.publish topic payload qos).2.isOpen = c.isOpen := by
  unfold publish
  split
  · split
    · exact send_frame ..
    · exact ⟨rfl, rfl⟩
  · exact ⟨rfl, rfl⟩

/-- A sign of life changes neither the session nor the connection, whether it succeeds or not. -/
theorem ping_frame (c : Client τ) :
    c.ping.2.session = c.session ∧ c.ping.2.isOpen = c.isOpen := by
  unfold ping
  split
  · exact send_frame ..
  · exact ⟨rfl, rfl⟩

/-- **Asking for a session leaves one asked for over an open connection, or nothing.** -/
theorem connect_cases (c : Client τ) :
    (c.connect.1 = .ok () ∧ c.connect.2.session = .awaiting ∧ c.connect.2.isOpen = true) ∨
      (∃ e, c.connect.1 = .error e) ∧ c.connect.2.session = .idle ∧ c.connect.2.isOpen = false := by
  unfold connect
  dsimp only
  split
  · exact .inr ⟨⟨_, rfl⟩, rfl, rfl⟩
  · split
    · exact .inr ⟨⟨_, rfl⟩, rfl, rfl⟩
    · exact .inl ⟨rfl, rfl, rfl⟩

end Mqtt.Client

namespace BrokerSession

open Mqtt

variable {τ : Type}

/-- The change of the session that a poll of the client comes to. -/
def changeOf : Except NetError (Option Notification) → Option SessionChange
  | .ok (some .connected) => some .connected
  | .ok (some (.refused _)) => some .disconnected
  | .ok (some .disconnected) => some .disconnected
  | .ok (some (.published _)) => none
  | .ok none => none
  | .error _ => none

/-- What a report, or the lack of one, says about a client that was `c` and is `c'` now. Only over
an open connection is anything reported. -/
def Reports (c c' : Client τ) : Option SessionChange → Prop
  | none => c'.session = c.session ∧ c'.isOpen = c.isOpen
  | some .connected => c.isOpen = true ∧ c'.session = .connected ∧ c'.isOpen = true
  | some .disconnected => c.isOpen = true ∧ c'.session = .idle ∧ c'.isOpen = false

/-- Where nothing was reported at first, what is reported then says the same about the whole. -/
theorem Reports.trans {c c₁ c₂ : Client τ} {change : Option SessionChange}
    (h₁ : Reports c c₁ none) (h₂ : Reports c₁ c₂ change) : Reports c c₂ change := by
  obtain ⟨hs, ho⟩ := h₁
  cases change with
  | none => exact ⟨h₂.1.trans hs, h₂.2.trans ho⟩
  | some change =>
    cases change with
    | connected => exact ⟨ho ▸ h₂.1, h₂.2⟩
    | disconnected => exact ⟨ho ▸ h₂.1, h₂.2⟩

variable [DialLink τ]

/-- A poll of the client reports what has happened. -/
theorem reports_poll (c : Client τ) : Reports c c.poll.2 (changeOf c.poll.1) := by
  unfold Client.poll
  split
  · rename_i ho
    split
    · exact ⟨rfl, rfl⟩
    · exact ⟨ho, rfl, rfl⟩
    · unfold Client.handle
      split
      · exact ⟨rfl, rfl⟩
      · exact ⟨ho, rfl, ho⟩
      · exact ⟨ho, rfl, rfl⟩
      · exact ⟨rfl, rfl⟩
      · exact ⟨rfl, rfl⟩
  · exact ⟨rfl, rfl⟩

/-- **A change that is found has happened**, and where none is found nothing has changed. -/
theorem reports_nextChange (b : BrokerSession τ) :
    Reports b.client b.nextChange.value.2.client b.nextChange.value.1 := by
  have hpoll : ∀ {b : BrokerSession τ} {r : Except NetError (Option Notification)} {c : Client τ},
      b.client.poll = (r, c) → Reports b.client c (changeOf r) := by
    intro b r c h
    have := reports_poll b.client
    rwa [h] at this
  fun_induction nextChange b with
  | case1 b c h => exact hpoll h
  | case2 b reason c h => exact hpoll h
  | case3 b c h => exact hpoll h
  | case4 b p c h _ ih => exact (hpoll h).trans ih
  | case5 b c h => exact hpoll h
  | case6 b e c h => exact hpoll h

/-- A session over a broker is never there at once; where it is asked for, it is left pending. -/
theorem session_of_openSession {b b' : BrokerSession τ}
    (h : b.openSession.value = (.pending, b')) :
    b'.client.session = .awaiting ∧ b'.client.isOpen = true := by
  have hc := Client.connect_cases b.client
  unfold openSession at h
  split at h <;> rename_i c hr <;> rw [hr] at hc
  · obtain ⟨-, rfl⟩ := Prod.mk.inj h
    simpa using hc
  · simp at h

/-- An opening that is settled at once is a failure. -/
theorem eq_rejected_of_openSession {b b' : BrokerSession τ} {o : Outcome}
    (h : b.openSession.value = (.resolved o, b')) : o = .rejected := by
  unfold openSession at h
  split at h
  · simp at h
  · simp only [Logged.value_bind, Logged.value_pure, Prod.mk.injEq, Progress.resolved.injEq] at h
    exact h.1.symm

/-- A sign of life in a session changes neither session nor connection. -/
theorem keepAlive_frame {b b' : BrokerSession τ} {o : Outcome} (h : b.keepAlive.value = (o, b')) :
    b'.client.session = b.client.session ∧ b'.client.isOpen = b.client.isOpen := by
  have hb : b.keepAlive.value.2 = b' := congrArg Prod.snd h
  rw [← hb]
  exact Client.ping_frame b.client

/-- Publishing the chosen period changes neither session nor connection. -/
theorem configure_frame [Json.Writer] {b b' : BrokerSession τ} {ctx : SessionContext}
    {o : Outcome} (h : (b.configure ctx).value = (o, b')) :
    b'.client.session = b.client.session ∧ b'.client.isOpen = b.client.isOpen := by
  have hb : (b.configure ctx).value.2 = b' := congrArg Prod.snd h
  rw [← hb]
  unfold configure
  split
  · exact ⟨rfl, rfl⟩
  · exact Client.publish_frame ..

/-- Publishing a reading changes neither session nor connection. -/
theorem publish_frame {b b' : BrokerSession τ} {ctx : SessionContext} {reading : Bytes}
    {o : Outcome} (h : (b.publish ctx reading).value = (o, b')) :
    b'.client.session = b.client.session ∧ b'.client.isOpen = b.client.isOpen := by
  have hb : (b.publish ctx reading).value.2 = b' := congrArg Prod.snd h
  rw [← hb]
  unfold publish
  split
  · exact ⟨rfl, rfl⟩
  · exact Client.publish_frame ..

/-- What happens to the link happens under the client. -/
def onLink (change : τ → τ) (b : BrokerSession τ) : BrokerSession τ :=
  { b with client := { b.client with link := change b.client.link } }

end BrokerSession

end EdgeDevice
