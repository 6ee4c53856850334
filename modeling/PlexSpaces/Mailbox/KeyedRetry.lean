import PlexSpaces.Lib.Run
import PlexSpaces.Mailbox.KeyStore
import PlexSpaces.Mailbox.Mailbox
/-!
# Retries of keyed messages

`enqueue` claims the key of a message before it looks at the capacity of the mailbox.  Where
it then rejects or drops the message the key stays claimed, and a retry is taken for a
duplicate (`not_retriable`).  As long as the mailbox has a place for every message that
claims a key, an enqueue that leaves its message out has one before it that was accepted
(`keyed_enqueue_retriable`).
-/

namespace PlexSpaces.Mailbox

open PlexSpaces.Lib

/-- The clock readings of a call, in the order in which it takes them. -/
structure Readings where
  checked : Nat
  inserted : Nat
  completed : Nat
  checked_le : checked ≤ inserted
  inserted_le : inserted ≤ completed

/-- What the key of a message decides. -/
inductive KeyCheck
  | turnedAway
  | unclaimed
  | claimed
  deriving DecidableEq

def Message.isKeyed (m : Message) : Bool := !m.isCtrlMessage && m.idempotencyKey ≠ ""

/-- A mailbox with the idempotency store that it uses. -/
structure Endpoint (σ : Type) where
  mailbox : Mailbox
  store : σ

namespace Endpoint

variable {σ : Type} (st : IdempotencyStore σ)

/-- The deduplication in `enqueue`; `claimed` stands for `should_record_complete`. -/
def checkKey (n : Endpoint σ) (t : Readings) (m : Message) : KeyCheck × Endpoint σ :=
  if m.idempotencyKey = "" then (.unclaimed, n)
  else if m.isOverwrite then
    let (stale, mailbox) := n.mailbox.overwrite m
    (if stale then .turnedAway else .unclaimed, { n with mailbox := mailbox })
  else
    let (answer, store) := st.checkAndRecord n.store t.checked t.inserted m.idempotencyKey
    (match answer with
      | .ok .firstSeen => .claimed
      | .ok _ => .turnedAway
      | .error _ => .unclaimed,
      { n with store := store })

/-- The idempotency bookkeeping behind a message that was queued, or met a closed channel. -/
def complete (n : Endpoint σ) (t : Readings) (m : Message) (check : KeyCheck) : Endpoint σ :=
  match check with
  | .claimed => { n with store := st.completeRecord n.store t.completed m.idempotencyKey none }
  | _ => n

def refusesNew (mb : Mailbox) : Bool := !mb.isInMemory && mb.shutdownFlag

def enqueue (n : Endpoint σ) (t : Readings) (pos : Nat) (m : Message) :
    Except MailboxError Unit × Endpoint σ :=
  if m.isCtrlMessage then
    (.ok (), { n with mailbox := { n.mailbox with ctrl := n.mailbox.ctrl ++ [m] } })
  else if refusesNew n.mailbox then
    (.error (.storageError "Mailbox is shutting down, not accepting new messages"), n)
  else
    match n.checkKey st t m with
    | (.turnedAway, n) => (.ok (), n)
    | (check, n) =>
        match n.mailbox.accept pos m with
        | (.queued, mailbox) =>
            (.ok (), ({ n with mailbox := mailbox } : Endpoint σ).complete st t m check)
        | (.closed, mailbox) =>
            (.ok (), ({ n with mailbox := mailbox } : Endpoint σ).complete st t m check)
        | (.dropped, mailbox) => (.ok (), { n with mailbox := mailbox })
        | (.rejected error, mailbox) => (.error error, { n with mailbox := mailbox })

end Endpoint

/-- The message has gone into the mailbox. -/
structure Queued (mb mb' : Mailbox) (m : Message) : Prop where
  counted : mb'.totalEnqueued = mb.totalEnqueued + 1
  present : m ∈ mb'.data ∨ m ∈ mb'.internalQueue.messages

/-- There is a free place for a data message. -/
def HasRoom (mb : Mailbox) : Prop :=
  mb.dataQueueSize < mb.maxCapacity ∧
    (mb.fastPath = true → mb.receiverDropped = false ∧ mb.data.length < max mb.maxCapacity 1)

/-- A data message is queued: there is room, or an old message is dropped for it. -/
def Takes (mb : Mailbox) : Prop :=
  mb.HasRoom ∨ mb.fastPath = false ∧ mb.config.backpressure = .dropOldest

/-- A data message is answered with `Full`. -/
def Rejects (mb : Mailbox) : Prop :=
  if mb.maxCapacity ≤ mb.dataQueueSize then
    mb.config.backpressure = .error ∨ mb.config.backpressure = .unspecified
  else
    mb.fastPath = true ∧ mb.receiverDropped = false ∧ max mb.maxCapacity 1 ≤ mb.data.length

section Admission

variable {mb : Mailbox} {m : Message}

/-- What an operation leaves as it was, but for the messages `new` that it may queue. -/
structure Keeps (new : List Message) (mb mb' : Mailbox) : Prop where
  fits : mb.Fits → mb'.Fits
  queue : ∀ m ∈ mb'.internalQueue.messages, m ∈ new ∨ m ∈ mb.internalQueue.messages

theorem keeps_refl (mb : Mailbox) : Keeps [] mb mb := ⟨id, fun _ hm => .inr hm⟩

theorem keeps_dropOldest (mb : Mailbox) : Keeps [] mb mb.dropOldest := by
  refine ⟨MessageStorage.fits_dropOldest, ?_⟩
  intro m hm
  change m ∈ mb.internalQueue.dropOldest.messages at hm
  rw [MessageStorage.messages_dropOldest] at hm
  exact .inr (List.mem_of_mem_tail hm)

theorem keeps_push (h : mb.Fits) (pos : Nat) (m : Message) : Keeps [m] mb (mb.push pos m) := by
  refine ⟨fun _ => MessageStorage.fits_push h pos m, ?_⟩
  intro m' hm'
  rcases List.mem_cons.mp ((MessageStorage.push_perm h pos m).mem_iff.mp hm') with rfl | hold
  · exact .inl List.mem_cons_self
  · exact .inr hold

theorem queued_push (h : mb.Fits) (pos : Nat) (m : Message) : Queued mb (mb.push pos m) m := by
  refine ⟨rfl, .inr ?_⟩
  exact (MessageStorage.push_perm h pos m).mem_iff.mpr List.mem_cons_self

/-- The ends of `enqueue` behind the key. -/
inductive Admitted (mb : Mailbox) (m : Message) : Admission × Mailbox → Prop
  | queued {mb' : Mailbox} (takes : mb.Takes) (queued : Queued mb mb' m)
      (keeps : Keeps [m] mb mb') : Admitted mb m (.queued, mb')
  | rejected (rejects : mb.Rejects) (full : ¬mb.Takes) :
      Admitted mb m (.rejected mb.fullError, mb)
  | closed (gone : mb.dataQueueSize < mb.maxCapacity ∧ mb.receiverDropped = true)
      (stays : ¬mb.Rejects) (full : ¬mb.Takes) : Admitted mb m (.closed, mb)
  | dropped {mb' : Mailbox} (stays : ¬mb.Rejects) (full : ¬mb.Takes)
      (same : mb'.totalEnqueued = mb.totalEnqueued) (keeps : Keeps [] mb mb') :
      Admitted mb m (.dropped, mb')

theorem not_takes_of_full (hfull : mb.maxCapacity ≤ mb.dataQueueSize)
    (hkeep : mb.fastPath = true ∨ mb.config.backpressure ≠ .dropOldest) : ¬mb.Takes := by
  rintro (hroom | ⟨hfast, hoccasion⟩)
  · exact absurd hroom.1 (by omega)
  · rcases hkeep with hkeep | hkeep
    · rw [hfast] at hkeep
      cases hkeep
    · exact hkeep hoccasion

theorem rejects_of_full (hfull : mb.maxCapacity ≤ mb.dataQueueSize) : mb.Rejects ↔
    mb.config.backpressure = .error ∨ mb.config.backpressure = .unspecified := by
  rw [Rejects, if_pos hfull]

theorem sendFast_admitted (hfast : mb.fastPath = true) (m : Message) :
    Admitted mb m (mb.sendFast m) := by
  unfold sendFast
  by_cases hfull : mb.maxCapacity ≤ mb.dataQueueSize
  · have hplace := not_takes_of_full hfull (.inl hfast)
    have hrejects := rejects_of_full hfull
    rw [if_pos hfull]
    cases hback : mb.config.backpressure with
    | unspecified => exact .rejected (hrejects.mpr (.inr hback)) hplace
    | error => exact .rejected (hrejects.mpr (.inl hback)) hplace
    | dropOldest =>
        refine .dropped ?_ hplace rfl ⟨id, fun _ hm => .inr hm⟩
        rw [hrejects, hback]
        decide
    | dropNewest =>
        refine .dropped ?_ hplace rfl ⟨id, fun _ hm => .inr hm⟩
        rw [hrejects, hback]
        decide
  · rw [if_neg hfull]
    have hordered : ¬(mb.fastPath = false ∧ mb.config.backpressure = .dropOldest) := by
      rw [hfast]
      rintro ⟨hslow, -⟩
      cases hslow
    by_cases hclosed : mb.receiverDropped = true
    · rw [if_pos hclosed]
      refine .closed ⟨by omega, hclosed⟩ ?_ ?_
      · rw [Rejects, if_neg hfull, hclosed]
        rintro ⟨-, hopen, -⟩
        cases hopen
      · rintro (hroom | hdrop)
        · rw [(hroom.2 hfast).1] at hclosed
          cases hclosed
        · exact hordered hdrop
    · have hopen : mb.receiverDropped = false := by simpa using hclosed
      rw [if_neg hclosed]
      by_cases hslots : max mb.maxCapacity 1 ≤ mb.data.length
      · rw [if_pos hslots]
        refine .rejected ?_ ?_
        · rw [Rejects, if_neg hfull]
          exact ⟨hfast, hopen, hslots⟩
        · rintro (hroom | hdrop)
          · exact absurd (hroom.2 hfast).2 (by omega)
          · exact hordered hdrop
      · rw [if_neg hslots]
        refine .queued (.inl ⟨by omega, fun _ => ⟨hopen, by omega⟩⟩) ⟨rfl, .inl ?_⟩
          ⟨id, fun _ hm => .inr hm⟩
        exact List.mem_append_right _ List.mem_cons_self

theorem sendOrdered_admitted (hslow : mb.fastPath = false) (h : mb.Fits) (pos : Nat) (m : Message) :
    Admitted mb m (mb.sendOrdered pos m) := by
  unfold sendOrdered
  by_cases hfull : mb.maxCapacity ≤ mb.dataQueueSize
  · have hrejects := rejects_of_full hfull
    rw [if_pos hfull]
    cases hback : mb.config.backpressure with
    | unspecified =>
        refine .rejected (hrejects.mpr (.inr hback)) (not_takes_of_full hfull (.inr ?_))
        rw [hback]
        decide
    | error =>
        refine .rejected (hrejects.mpr (.inl hback)) (not_takes_of_full hfull (.inr ?_))
        rw [hback]
        decide
    | dropOldest =>
        have hdrop := keeps_dropOldest mb
        have hpush := keeps_push (hdrop.fits h) pos m
        have hqueued := queued_push (hdrop.fits h) pos m
        refine .queued (.inr ⟨hslow, hback⟩) ⟨rfl, hqueued.present⟩ ⟨hpush.fits ∘ hdrop.fits, ?_⟩
        intro m' hm'
        rcases hpush.queue m' hm' with hnew | hold
        · exact .inl hnew
        · exact .inr ((hdrop.queue m' hold).resolve_left List.not_mem_nil)
    | dropNewest =>
        refine .dropped ?_ (not_takes_of_full hfull (.inr ?_)) rfl ⟨id, fun _ hm => .inr hm⟩
        · rw [hrejects, hback]
          decide
        · rw [hback]
          decide
  · rw [if_neg hfull]
    refine .queued (.inl ⟨by omega, ?_⟩) (queued_push h pos m) (keeps_push h pos m)
    intro hfast
    rw [hslow] at hfast
    cases hfast

theorem accept_admitted (h : mb.Fits) (pos : Nat) (m : Message) :
    Admitted mb m (mb.accept pos m) := by
  unfold accept
  by_cases hfast : mb.fastPath = true
  · rw [if_pos hfast]
    exact sendFast_admitted hfast m
  · rw [if_neg hfast]
    exact sendOrdered_admitted (by simpa using hfast) h pos m

theorem keeps_overwrite (mb : Mailbox) (m : Message) : Keeps [] mb (mb.overwrite m).2 ∧
    (mb.overwrite m).2.totalEnqueued = mb.totalEnqueued := by
  unfold overwrite
  by_cases hfast : mb.fastPath = true
  · rw [if_pos hfast]
    exact ⟨keeps_refl mb, rfl⟩
  · rw [if_neg hfast]
    refine ⟨⟨fun h => MessageStorage.fits_overwrite h m, ?_⟩, rfl⟩
    intro m' hm'
    change m' ∈ (mb.internalQueue.overwrite m).2.2.messages at hm'
    rw [MessageStorage.messages_overwrite] at hm'
    exact .inr (List.mem_of_mem_filter hm')

theorem exists_of_stale (h : (mb.overwrite m).1 = true) :
    ∃ queued ∈ mb.internalQueue.messages, queued.idempotencyKey = m.idempotencyKey := by
  unfold overwrite at h
  by_cases hfast : mb.fastPath = true
  · rw [if_pos hfast] at h
    cases h
  · rw [if_neg hfast] at h
    obtain ⟨queued, hmem, hkey⟩ := MessageStorage.exists_of_stale h
    rw [MessageStorage.messages_overwrite] at hmem
    exact ⟨queued, List.mem_of_mem_filter hmem, hkey⟩

end Admission

/-- An endpoint with the messages that it has accepted: their keys, and when. -/
structure History (σ : Type) where
  endpoint : Endpoint σ
  accepted : List (String × Nat)

/-- What happens to an endpoint.  The background tasks take the internal queue away; the
messages of a persistent channel reach the actor's channel on their own. -/
inductive EndpointEvent
  | enqueue (t : Readings) (pos : Nat) (m : Message)
  | forward
  | arrive (m : Message)
  | receive
  | stop
  | shutdown
  | cleanup (now : Nat)

namespace History

variable {σ : Type} (st : IdempotencyStore σ)

def start (mb : Mailbox) : History σ := ⟨⟨mb, st.new⟩, []⟩

def setMailbox (h : History σ) (mb : Mailbox) : History σ :=
  { h with endpoint := { h.endpoint with mailbox := mb } }

def step (h : History σ) : EndpointEvent → History σ
  | .enqueue t pos m =>
      let next := (h.endpoint.enqueue st t pos m).2
      if next.mailbox.totalEnqueued = h.endpoint.mailbox.totalEnqueued + 1 then
        ⟨next, (m.idempotencyKey, t.completed) :: h.accepted⟩
      else ⟨next, h.accepted⟩
  | .forward =>
      let mb := h.endpoint.mailbox
      h.setMailbox
        { mb with
          internalQueue := mb.internalQueue.clear
          data := if mb.isInMemory then mb.data ++ mb.internalQueue.messages else mb.data }
  | .arrive m =>
      let mb := h.endpoint.mailbox
      h.setMailbox { mb with data := if mb.isInMemory then mb.data else mb.data ++ [m] }
  | .receive =>
      let mb := h.endpoint.mailbox
      match mb.data with
      | [] => h
      | _ :: rest =>
          h.setMailbox { mb with data := rest, dataQueueSize := fetchSub mb.dataQueueSize 1 }
  | .stop => h.setMailbox { h.endpoint.mailbox with receiverDropped := true }
  | .shutdown => h.setMailbox { h.endpoint.mailbox with shutdownFlag := true }
  | .cleanup now =>
      { h with
        endpoint := { h.endpoint with store := st.cleanupExpired h.endpoint.store now } }

/-- An earlier enqueue with the key of the message was accepted; for a message that goes
through the store, not longer ago than the time to live. -/
def AcceptedBefore (h : History σ) (t : Readings) (m : Message) : Prop :=
  ∃ time, (m.idempotencyKey, time) ∈ h.accepted ∧
    (m.isOverwrite = true ∨ t.checked ≤ time + st.ttl)

/-- A keyed message that is answered with `Ok`, or that comes when there is room, goes into
the mailbox, unless an enqueue with its key was accepted before. -/
def Retriable (h : History σ) : EndpointEvent → Prop
  | .enqueue t pos m =>
      m.isKeyed = true →
        (h.endpoint.enqueue st t pos m).1 = .ok () ∨
          Endpoint.refusesNew h.endpoint.mailbox = false ∧
            (h.endpoint.checkKey st t m).2.mailbox.HasRoom →
        Queued h.endpoint.mailbox (h.endpoint.enqueue st t pos m).2.mailbox m ∨
          h.AcceptedBefore st t m
  | _ => True

/-- There is a place in the mailbox for a message that claims its key, and a keyed message
that goes past the store is not dropped. -/
def KeepsClaims (h : History σ) : EndpointEvent → Prop
  | .enqueue t _ m =>
      m.isKeyed = true → Endpoint.refusesNew h.endpoint.mailbox = false →
        let n := (h.endpoint.checkKey st t m).2
        match (h.endpoint.checkKey st t m).1 with
        | .claimed => n.mailbox.Takes
        | .unclaimed => n.mailbox.Takes ∨ n.mailbox.Rejects
        | .turnedAway => True
  | _ => True

end History

/-- The queued messages and the records of the store stem from accepted messages. -/
structure Endpoint.Sound {σ : Type} (st : IdempotencyStore σ) (n : Endpoint σ)
    (accepted : List (String × Nat)) : Prop where
  fits : n.mailbox.Fits
  queued : ∀ m ∈ n.mailbox.internalQueue.messages, ∃ time, (m.idempotencyKey, time) ∈ accepted
  recorded : ∀ key expires, st.Recorded n.store key expires →
    ∃ time, (key, time) ∈ accepted ∧ expires ≤ time + st.ttl

namespace Endpoint

variable {σ : Type} {st : IdempotencyStore σ} {n : Endpoint σ} {t : Readings} {m : Message}
  {accepted : List (String × Nat)}

theorem Sound.mono (h : n.Sound st accepted) (entry : String × Nat) :
    n.Sound st (entry :: accepted) := by
  refine ⟨h.fits, ?_, ?_⟩
  · intro m hm
    obtain ⟨time, htime⟩ := h.queued m hm
    exact ⟨time, List.mem_cons_of_mem _ htime⟩
  · intro key expires hrecorded
    obtain ⟨time, htime, hle⟩ := h.recorded key expires hrecorded
    exact ⟨time, List.mem_cons_of_mem _ htime, hle⟩

/-- An operation on the mailbox that only queues messages of accepted keys. -/
theorem Sound.setMailbox (h : n.Sound st accepted) {mb : Mailbox} {new : List Message}
    (hkeeps : Keeps new n.mailbox mb)
    (hnew : ∀ m ∈ new, ∃ time, (m.idempotencyKey, time) ∈ accepted) :
    ({ n with mailbox := mb } : Endpoint σ).Sound st accepted := by
  refine ⟨hkeeps.fits h.fits, ?_, h.recorded⟩
  intro m hm
  rcases hkeeps.queue m hm with hmem | hold
  · exact hnew m hmem
  · exact h.queued m hold

theorem Sound.complete (h : n.Sound st accepted) {check : KeyCheck}
    (hcheck : check = .claimed → (m.idempotencyKey, t.completed) ∈ accepted) :
    (n.complete st t m check).Sound st accepted := by
  cases check with
  | turnedAway => exact h
  | unclaimed => exact h
  | claimed =>
      refine ⟨h.fits, h.queued, ?_⟩
      intro key expires hrecorded
      rcases st.recorded_completeRecord _ _ _ _ _ _ hrecorded with hold | ⟨rfl, rfl, -⟩
      · exact h.recorded key expires hold
      · exact ⟨t.completed, hcheck rfl, le_rfl⟩

/-- What the deduplication does to a message. -/
inductive Checked (st : IdempotencyStore σ) (n : Endpoint σ) (t : Readings) (m : Message) :
    KeyCheck × Endpoint σ → Prop
  | plain (hkey : m.idempotencyKey = "") : Checked st n t m (.unclaimed, n)
  | overwriting {mb : Mailbox} (hoverwrite : m.isOverwrite = true)
      (keeps : Keeps [] n.mailbox mb) (same : mb.totalEnqueued = n.mailbox.totalEnqueued) :
      Checked st n t m (.unclaimed, { n with mailbox := mb })
  | stale {mb : Mailbox} {queued : Message} (hoverwrite : m.isOverwrite = true)
      (keeps : Keeps [] n.mailbox mb) (same : mb.totalEnqueued = n.mailbox.totalEnqueued)
      (hmem : queued ∈ n.mailbox.internalQueue.messages)
      (hkey : queued.idempotencyKey = m.idempotencyKey) :
      Checked st n t m (.turnedAway, { n with mailbox := mb })
  | asked {check : KeyCheck} {store : σ}
      (known : check = .turnedAway →
        ∃ expires, st.Recorded n.store m.idempotencyKey expires ∧ t.checked ≤ expires)
      (recorded : ∀ key expires, st.Recorded store key expires →
        st.Recorded n.store key expires ∨
          check = .claimed ∧ key = m.idempotencyKey ∧ expires ≤ t.completed + st.ttl) :
      Checked st n t m (check, { n with store := store })

theorem checkKey_checked (n : Endpoint σ) (t : Readings) (m : Message) :
    Checked st n t m (n.checkKey st t m) := by
  unfold checkKey
  by_cases hkey : m.idempotencyKey = ""
  · rw [if_pos hkey]
    exact .plain hkey
  · rw [if_neg hkey]
    by_cases hoverwrite : m.isOverwrite = true
    · rw [if_pos hoverwrite]
      obtain ⟨hkeeps, hsame⟩ := keeps_overwrite n.mailbox m
      by_cases hstale : (n.mailbox.overwrite m).1 = true
      · obtain ⟨queued, hmem, hqueued⟩ := exists_of_stale hstale
        simp only [if_pos hstale]
        exact .stale hoverwrite hkeeps hsame hmem hqueued
      · simp only [if_neg hstale]
        exact .overwriting hoverwrite hkeeps hsame
    · rw [if_neg hoverwrite]
      have hstore := st.recorded_checkAndRecord n.store t.checked t.inserted m.idempotencyKey
      have hin := t.inserted_le
      have hle : max t.checked t.inserted = t.inserted := max_eq_right t.checked_le
      rw [hle] at hstore
      refine .asked ?_ ?_
      · intro hknown
        cases hanswer : (st.checkAndRecord n.store t.checked t.inserted m.idempotencyKey).1 with
        | error e =>
            rw [hanswer] at hknown
            cases hknown
        | ok outcome =>
            refine st.recorded_of_known _ _ _ _ outcome hanswer ?_
            rintro rfl
            rw [hanswer] at hknown
            cases hknown
      · intro key expires hrecorded
        rcases hstore key expires hrecorded with hold | ⟨hfirst, rfl, hexpires⟩
        · exact .inl hold
        · right
          rw [hfirst]
          exact ⟨rfl, rfl, by omega⟩

/-- The deduplication keeps the endpoint sound, once a message that claims its key counts as
accepted. -/
theorem Checked.sound {check : KeyCheck} {n' : Endpoint σ} (hc : Checked st n t m (check, n'))
    (h : n.Sound st accepted) : (check ≠ .claimed → n'.Sound st accepted) ∧
      n'.Sound st ((m.idempotencyKey, t.completed) :: accepted) := by
  cases hc with
  | plain hkey => exact ⟨fun _ => h, h.mono _⟩
  | overwriting hoverwrite keeps same =>
      have hsound := h.setMailbox keeps (fun _ hm => absurd hm List.not_mem_nil)
      exact ⟨fun _ => hsound, hsound.mono _⟩
  | stale hoverwrite keeps same hmem hkey =>
      have hsound := h.setMailbox keeps (fun _ hm => absurd hm List.not_mem_nil)
      exact ⟨fun _ => hsound, hsound.mono _⟩
  | asked known recorded =>
      refine ⟨?_, ⟨h.fits, (h.mono _).queued, ?_⟩⟩
      · intro hcheck
        refine ⟨h.fits, h.queued, ?_⟩
        intro key expires hrecorded
        rcases recorded key expires hrecorded with hold | ⟨hclaimed, -⟩
        · exact h.recorded key expires hold
        · exact absurd hclaimed hcheck
      · intro key expires hrecorded
        rcases recorded key expires hrecorded with hold | ⟨-, rfl, hexpires⟩
        · exact (h.mono _).recorded key expires hold
        · exact ⟨t.completed, List.mem_cons_self, hexpires⟩

theorem Checked.totalEnqueued {check : KeyCheck} {n' : Endpoint σ}
    (hc : Checked st n t m (check, n')) :
    n'.mailbox.totalEnqueued = n.mailbox.totalEnqueued := by
  cases hc with
  | plain hkey => rfl
  | overwriting hoverwrite keeps same => exact same
  | stale hoverwrite keeps same hmem hkey => exact same
  | asked known recorded => rfl

theorem Checked.acceptedBefore {n' : Endpoint σ} (hc : Checked st n t m (.turnedAway, n'))
    (h : n.Sound st accepted) : (⟨n, accepted⟩ : History σ).AcceptedBefore st t m := by
  cases hc with
  | stale hoverwrite keeps same hmem hkey =>
      obtain ⟨time, htime⟩ := h.queued _ hmem
      rw [hkey] at htime
      exact ⟨time, htime, .inl hoverwrite⟩
  | asked known recorded =>
      obtain ⟨expires, hrecorded, hlive⟩ := known rfl
      obtain ⟨time, htime, hle⟩ := h.recorded _ _ hrecorded
      exact ⟨time, htime, .inr (hlive.trans hle)⟩

theorem mailbox_complete (n : Endpoint σ) (t : Readings) (m : Message) (check : KeyCheck) :
    (n.complete st t m check).mailbox = n.mailbox := by
  cases check with
  | turnedAway => rfl
  | unclaimed => rfl
  | claimed => rfl

theorem checkKey_of_not_keyed (hkey : m.idempotencyKey = "") :
    n.checkKey st t m = (.unclaimed, n) := by
  rw [checkKey, if_pos hkey]

/-- The end of `enqueue`, by what the deduplication and the two paths say. -/
theorem enqueue_of_checked (pos : Nat) (hctrl : m.isCtrlMessage = false)
    (hopen : refusesNew n.mailbox = false) {check : KeyCheck} {n' : Endpoint σ}
    (hcheck : n.checkKey st t m = (check, n')) (hpast : check ≠ .turnedAway) :
    n.enqueue st t pos m =
      match n'.mailbox.accept pos m with
      | (.queued, mailbox) =>
          (.ok (), ({ n' with mailbox := mailbox } : Endpoint σ).complete st t m check)
      | (.closed, mailbox) =>
          (.ok (), ({ n' with mailbox := mailbox } : Endpoint σ).complete st t m check)
      | (.dropped, mailbox) => (.ok (), { n' with mailbox := mailbox })
      | (.rejected error, mailbox) => (.error error, { n' with mailbox := mailbox }) := by
  rw [enqueue, hctrl, hopen, hcheck]
  cases check with
  | turnedAway => exact absurd rfl hpast
  | unclaimed => rfl
  | claimed => rfl

end Endpoint

namespace History

variable {σ : Type} {st : IdempotencyStore σ} {h : History σ}

/-- An enqueue ends well when it queues its message, or leaves the endpoint sound and its
message to a retry. -/
theorem enqueue_step {t : Readings} {pos : Nat} {m : Message} {result : Except MailboxError Unit}
    {next : Endpoint σ} (henqueue : h.endpoint.enqueue st t pos m = (result, next))
    (hend : Queued h.endpoint.mailbox next.mailbox m ∧
        next.Sound st ((m.idempotencyKey, t.completed) :: h.accepted) ∨
      next.mailbox.totalEnqueued = h.endpoint.mailbox.totalEnqueued ∧
        next.Sound st h.accepted ∧
        (m.isKeyed = true → result = .ok () ∨ Endpoint.refusesNew h.endpoint.mailbox = false ∧
          (h.endpoint.checkKey st t m).2.mailbox.HasRoom → h.AcceptedBefore st t m)) :
    h.Retriable st (.enqueue t pos m) ∧
      (h.step st (.enqueue t pos m)).endpoint.Sound st
        (h.step st (.enqueue t pos m)).accepted := by
  have hstep : h.step st (.enqueue t pos m) =
      if next.mailbox.totalEnqueued = h.endpoint.mailbox.totalEnqueued + 1 then
        ⟨next, (m.idempotencyKey, t.completed) :: h.accepted⟩
      else ⟨next, h.accepted⟩ := by
    rw [step, henqueue]
  have hretriable : h.Retriable st (.enqueue t pos m) ↔ (m.isKeyed = true →
      result = .ok () ∨ Endpoint.refusesNew h.endpoint.mailbox = false ∧
        (h.endpoint.checkKey st t m).2.mailbox.HasRoom →
      Queued h.endpoint.mailbox next.mailbox m ∨ h.AcceptedBefore st t m) := by
    rw [Retriable, henqueue]
  rw [hstep, hretriable]
  rcases hend with ⟨hqueued, hsound⟩ | ⟨hsame, hsound, hbefore⟩
  · rw [if_pos hqueued.counted]
    exact ⟨fun _ _ => .inl hqueued, hsound⟩
  · rw [if_neg (by omega)]
    exact ⟨fun hkeyed hasked => .inr (hbefore hkeyed hasked), hsound⟩

theorem admitted_step (hs : h.endpoint.Sound st h.accepted) {t : Readings} (pos : Nat)
    {m : Message} (hctrl : m.isCtrlMessage = false)
    (hopen : Endpoint.refusesNew h.endpoint.mailbox = false) {check : KeyCheck} {n' : Endpoint σ}
    (hcheck : h.endpoint.checkKey st t m = (check, n')) (hpast : check ≠ .turnedAway)
    (hclaimed : check = .claimed → n'.mailbox.Takes)
    (hkeyed : m.isKeyed = true → n'.mailbox.Takes ∨ n'.mailbox.Rejects) :
    h.Retriable st (.enqueue t pos m) ∧
      (h.step st (.enqueue t pos m)).endpoint.Sound st
        (h.step st (.enqueue t pos m)).accepted := by
  have hchecked : Endpoint.Checked st h.endpoint t m (h.endpoint.checkKey st t m) :=
    Endpoint.checkKey_checked h.endpoint t m
  rw [hcheck] at hchecked
  obtain ⟨hunclaimed, hcounted⟩ := hchecked.sound hs
  have henqueue := Endpoint.enqueue_of_checked pos hctrl hopen hcheck hpast
  have htotal := hchecked.totalEnqueued
  have hnotClaimed : ¬n'.mailbox.Takes → check ≠ .claimed := fun hfull hc => hfull (hclaimed hc)
  cases haccept : n'.mailbox.accept pos m with
  | mk admission mailbox =>
      have hadmitted := accept_admitted hcounted.fits pos m
      rw [haccept] at henqueue hadmitted
      cases hadmitted with
      | queued takes queued keeps =>
          refine enqueue_step henqueue (.inl ⟨?_, ?_⟩)
          · rw [Endpoint.mailbox_complete]
            exact ⟨queued.counted.trans (by rw [htotal]), queued.present⟩
          · refine (hcounted.setMailbox keeps ?_).complete fun _ => List.mem_cons_self
            intro m' hm'
            rw [List.mem_singleton.mp hm']
            exact ⟨t.completed, List.mem_cons_self⟩
      | rejected rejects full =>
          refine enqueue_step henqueue (.inr ⟨htotal, hunclaimed (hnotClaimed full), ?_⟩)
          rintro - (hok | ⟨-, hroom⟩)
          · cases hok
          · rw [hcheck] at hroom
            exact absurd (.inl hroom) full
      | closed gone stays full =>
          refine enqueue_step henqueue (.inr ⟨?_, ?_, ?_⟩)
          · rw [Endpoint.mailbox_complete]
            exact htotal
          · exact (hunclaimed (hnotClaimed full)).complete fun hc =>
              absurd hc (hnotClaimed full)
          · intro hkey _
            exact absurd (hkeyed hkey) (not_or.mpr ⟨full, stays⟩)
      | dropped stays full same keeps =>
          refine enqueue_step henqueue (.inr ⟨same.trans htotal, ?_, ?_⟩)
          · exact (hunclaimed (hnotClaimed full)).setMailbox keeps fun _ hm =>
              absurd hm List.not_mem_nil
          · intro hkey _
            exact absurd (hkeyed hkey) (not_or.mpr ⟨full, stays⟩)

theorem turnedAway_step (hs : h.endpoint.Sound st h.accepted) {t : Readings} (pos : Nat)
    {m : Message} (hctrl : m.isCtrlMessage = false)
    (hopen : Endpoint.refusesNew h.endpoint.mailbox = false) {n' : Endpoint σ}
    (hcheck : h.endpoint.checkKey st t m = (.turnedAway, n')) :
    h.Retriable st (.enqueue t pos m) ∧
      (h.step st (.enqueue t pos m)).endpoint.Sound st
        (h.step st (.enqueue t pos m)).accepted := by
  have hchecked : Endpoint.Checked st h.endpoint t m (h.endpoint.checkKey st t m) :=
    Endpoint.checkKey_checked h.endpoint t m
  rw [hcheck] at hchecked
  have henqueue : h.endpoint.enqueue st t pos m = (.ok (), n') := by
    rw [Endpoint.enqueue, hctrl, hopen, hcheck]
    rfl
  have hsound : n'.Sound st h.accepted := by
    refine (hchecked.sound hs).1 ?_
    intro hclaimed
    cases hclaimed
  exact enqueue_step henqueue
    (.inr ⟨hchecked.totalEnqueued, hsound, fun _ _ => hchecked.acceptedBefore hs⟩)

/-- A control message goes past the store and the capacity check. -/
theorem ctrl_step (hs : h.endpoint.Sound st h.accepted) {t : Readings} (pos : Nat)
    {m : Message} (hctrl : m.isCtrlMessage = true) :
    h.Retriable st (.enqueue t pos m) ∧
      (h.step st (.enqueue t pos m)).endpoint.Sound st
        (h.step st (.enqueue t pos m)).accepted := by
  have hmailbox : Keeps [] h.endpoint.mailbox
      { h.endpoint.mailbox with ctrl := h.endpoint.mailbox.ctrl ++ [m] } :=
    ⟨id, fun _ hm => .inr hm⟩
  have henqueue : h.endpoint.enqueue st t pos m = (.ok (), { h.endpoint with
      mailbox := { h.endpoint.mailbox with ctrl := h.endpoint.mailbox.ctrl ++ [m] } }) := by
    rw [Endpoint.enqueue, hctrl]
    rfl
  refine enqueue_step henqueue (.inr ⟨rfl, ?_, ?_⟩)
  · exact hs.setMailbox hmailbox fun _ hm => absurd hm List.not_mem_nil
  · intro hkeyed
    rw [Message.isKeyed, hctrl] at hkeyed
    cases hkeyed

theorem refused_step (hs : h.endpoint.Sound st h.accepted) {t : Readings} (pos : Nat)
    {m : Message} (hctrl : m.isCtrlMessage = false)
    (hclosing : Endpoint.refusesNew h.endpoint.mailbox = true) :
    h.Retriable st (.enqueue t pos m) ∧
      (h.step st (.enqueue t pos m)).endpoint.Sound st
        (h.step st (.enqueue t pos m)).accepted := by
  have henqueue : h.endpoint.enqueue st t pos m = (.error (.storageError
      "Mailbox is shutting down, not accepting new messages"), h.endpoint) := by
    rw [Endpoint.enqueue, hctrl, hclosing]
    rfl
  refine enqueue_step henqueue (.inr ⟨rfl, hs, ?_⟩)
  rintro - (hok | ⟨hfalse, -⟩)
  · cases hok
  · rw [hclosing] at hfalse
    cases hfalse

theorem keepsClaims_enqueue (hs : h.endpoint.Sound st h.accepted) {t : Readings} {pos : Nat}
    {m : Message} (hk : h.KeepsClaims st (.enqueue t pos m)) :
    h.Retriable st (.enqueue t pos m) ∧
      (h.step st (.enqueue t pos m)).endpoint.Sound st
        (h.step st (.enqueue t pos m)).accepted := by
  cases hctrl : m.isCtrlMessage with
  | true => exact ctrl_step hs pos hctrl
  | false =>
      cases hopen : Endpoint.refusesNew h.endpoint.mailbox with
      | true => exact refused_step hs pos hctrl hopen
      | false =>
          have hcond : m.isKeyed = true → _ := fun hkeyed => hk hkeyed hopen
          have hplain : m.isKeyed = false →
              h.endpoint.checkKey st t m = (.unclaimed, h.endpoint) := by
            intro hkeyed
            rw [Message.isKeyed, hctrl] at hkeyed
            exact Endpoint.checkKey_of_not_keyed (by simpa using hkeyed)
          cases hcheck : h.endpoint.checkKey st t m with
          | mk check n' =>
              rw [hcheck] at hcond hplain
              cases check with
              | turnedAway => exact turnedAway_step hs pos hctrl hopen hcheck
              | unclaimed =>
                  refine admitted_step hs pos hctrl hopen hcheck ?_ ?_ hcond
                  · intro hc
                    cases hc
                  · intro hc
                    cases hc
              | claimed =>
                  have hkeyed : m.isKeyed = true := by
                    by_contra hkeyed
                    have hc := hplain (by simpa using hkeyed)
                    cases hc
                  refine admitted_step hs pos hctrl hopen hcheck ?_ (fun _ => hcond hkeyed) ?_
                  · intro hc
                    cases hc
                  · exact fun hkeyed => .inl (hcond hkeyed)

theorem keepsClaims_step (e : EndpointEvent) (hs : h.endpoint.Sound st h.accepted)
    (hk : h.KeepsClaims st e) :
    h.Retriable st e ∧ (h.step st e).endpoint.Sound st (h.step st e).accepted := by
  have hset : ∀ mb : Mailbox, Keeps [] h.endpoint.mailbox mb →
      (h.setMailbox mb).endpoint.Sound st h.accepted := fun mb hkeeps =>
    hs.setMailbox hkeeps fun _ hm => absurd hm List.not_mem_nil
  cases e with
  | enqueue t pos m => exact keepsClaims_enqueue hs hk
  | forward =>
      refine ⟨trivial, hset _ ⟨MessageStorage.fits_clear, ?_⟩⟩
      intro m hm
      change m ∈ h.endpoint.mailbox.internalQueue.clear.messages at hm
      rw [MessageStorage.messages_clear] at hm
      exact absurd hm List.not_mem_nil
  | arrive m => exact ⟨trivial, hset _ ⟨id, fun _ hm => .inr hm⟩⟩
  | receive =>
      refine ⟨trivial, ?_⟩
      unfold step
      dsimp only
      split
      · exact hs
      · exact hset _ ⟨id, fun _ hm => .inr hm⟩
  | stop => exact ⟨trivial, hset _ ⟨id, fun _ hm => .inr hm⟩⟩
  | shutdown => exact ⟨trivial, hset _ ⟨id, fun _ hm => .inr hm⟩⟩
  | cleanup now =>
      refine ⟨trivial, hs.fits, hs.queued, ?_⟩
      intro key expires hrecorded
      exact hs.recorded key expires (st.recorded_cleanupExpired _ _ _ _ hrecorded)

end History

theorem sound_start {σ : Type} (st : IdempotencyStore σ) {mb : Mailbox} (h : mb.Fits)
    (hnew : mb.internalQueue.messages = []) :
    (History.start st mb).endpoint.Sound st [] := by
  refine ⟨h, ?_, ?_⟩
  · intro m hm
    change m ∈ mb.internalQueue.messages at hm
    rw [hnew] at hm
    exact absurd hm List.not_mem_nil
  · intro key expires hrecorded
    exact absurd hrecorded (st.not_recorded_new key expires)

namespace Endpoint

variable {σ : Type} {st : IdempotencyStore σ} {n : Endpoint σ} {t : Readings} {m : Message}

/-- The messages of the key that go through the store are answered with `Ok` until the time,
and do not get into the mailbox, whatever room there is. -/
def Swallows (st : IdempotencyStore σ) (store : σ) (key : String) (time : Nat) : Prop :=
  ∀ mb t pos m, refusesNew mb = false → m.isKeyed = true → m.isOverwrite = false →
    m.idempotencyKey = key → t.checked ≤ time →
      ∃ store', (⟨mb, store⟩ : Endpoint σ).enqueue st t pos m = (.ok (), ⟨mb, store'⟩)

theorem checkKey_of_keyed (hkeyed : m.isKeyed = true) (hkeep : m.isOverwrite = false) :
    m.isCtrlMessage = false ∧ n.checkKey st t m =
      (match (st.checkAndRecord n.store t.checked t.inserted m.idempotencyKey).1 with
        | .ok .firstSeen => .claimed
        | .ok _ => .turnedAway
        | .error _ => .unclaimed,
        { n with
          store := (st.checkAndRecord n.store t.checked t.inserted m.idempotencyKey).2 }) := by
  have hparts := (Bool.and_eq_true _ _).mp hkeyed
  refine ⟨by simpa using hparts.1, ?_⟩
  rw [checkKey, if_neg (of_decide_eq_true hparts.2), hkeep]
  rfl

theorem enqueue_of_known (pos : Nat) (hopen : refusesNew n.mailbox = false)
    (hkeyed : m.isKeyed = true) (hkeep : m.isOverwrite = false) {outcome : IdempotencyOutcome}
    (hanswer : (st.checkAndRecord n.store t.checked t.inserted m.idempotencyKey).1 = .ok outcome)
    (hknown : outcome ≠ .firstSeen) :
    n.enqueue st t pos m = (.ok (), { n with
      store := (st.checkAndRecord n.store t.checked t.inserted m.idempotencyKey).2 }) := by
  obtain ⟨hctrl, hcheck⟩ : m.isCtrlMessage = false ∧ n.checkKey st t m = _ :=
    checkKey_of_keyed hkeyed hkeep
  rw [hanswer] at hcheck
  rw [enqueue, hctrl, hopen, hcheck]
  cases outcome with
  | firstSeen => exact absurd rfl hknown
  | duplicate response => rfl
  | inFlight => rfl

/-- A message that claims its key and finds no place leaves the key claimed. -/
theorem swallows_of_claimed (hfits : n.mailbox.Fits) (pos : Nat) (hkeyed : m.isKeyed = true)
    (hkeep : m.isOverwrite = false) (hopen : refusesNew n.mailbox = false)
    (hclaimed : (n.checkKey st t m).1 = .claimed) (hfull : ¬n.mailbox.Takes)
    (hcap : n.mailbox.maxCapacity ≤ n.mailbox.dataQueueSize ∨ n.mailbox.receiverDropped = false) :
    Swallows st (n.enqueue st t pos m).2.store m.idempotencyKey (t.checked + st.ttl) := by
  obtain ⟨hctrl, hcheck⟩ : m.isCtrlMessage = false ∧ n.checkKey st t m = _ :=
    checkKey_of_keyed hkeyed hkeep
  have hfirst : (st.checkAndRecord n.store t.checked t.inserted m.idempotencyKey).1 =
      .ok .firstSeen := by
    rw [hcheck] at hclaimed
    dsimp only at hclaimed
    split at hclaimed
    · assumption
    · cases hclaimed
    · cases hclaimed
  rw [hfirst] at hcheck
  have hpast : KeyCheck.claimed ≠ .turnedAway := by decide
  have hstore : (n.enqueue st t pos m).2.store =
      (st.checkAndRecord n.store t.checked t.inserted m.idempotencyKey).2 := by
    rw [enqueue_of_checked pos hctrl hopen hcheck hpast]
    have hadmitted := accept_admitted hfits pos m
    dsimp only
    cases haccept : n.mailbox.accept pos m with
    | mk admission mailbox =>
        rw [haccept] at hadmitted
        cases hadmitted with
        | queued takes queued keeps => exact absurd takes hfull
        | rejected rejects full => rfl
        | closed gone stays full =>
            rcases hcap with hcap | hcap
            · exact absurd gone.1 (by omega)
            · rw [gone.2] at hcap
              cases hcap
        | dropped stays full same keeps => rfl
  intro mb t' pos' m' hopen' hkeyed' hkeep' hkey htime
  have hearly : t'.checked ≤ min t.checked t.inserted + st.ttl := by
    rw [min_eq_left t.checked_le]
    exact htime
  obtain ⟨outcome, hknown, hanswer⟩ :=
    st.known_of_claimed _ _ _ _ hfirst t'.checked t'.inserted hearly
  rw [← hstore, ← hkey] at hanswer
  exact ⟨_, enqueue_of_known pos' hopen' hkeyed' hkeep' hanswer hknown⟩

end Endpoint

/-- A mailbox that has a place for every message that claims its key leaves a keyed message
out only for an accepted one; and where a message claims its key and is rejected or dropped,
all its retries within the time to live are swallowed. -/
theorem keyed_enqueue_retriable {σ : Type} (st : IdempotencyStore σ) {env : Env}
    {config : MailboxConfig} {mb : Mailbox} (hnew : Mailbox.new env config = .ok mb) :
    (∀ es, Along (History.step st) (History.KeepsClaims st) (.start st mb) es →
      Along (History.step st) (History.Retriable st) (.start st mb) es) ∧
    ∀ (n : Endpoint σ) t pos m, n.mailbox.Fits → m.isKeyed = true → m.isOverwrite = false →
      Endpoint.refusesNew n.mailbox = false → (n.checkKey st t m).1 = .claimed →
      ¬n.mailbox.Takes →
      (n.mailbox.maxCapacity ≤ n.mailbox.dataQueueSize ∨ n.mailbox.receiverDropped = false) →
      Endpoint.Swallows st (n.enqueue st t pos m).2.store m.idempotencyKey
        (t.checked + st.ttl) := by
  obtain ⟨hfits, -, hempty, -⟩ := new_spec hnew
  refine ⟨?_, ?_⟩
  · intro es hrun
    exact hrun.of_invariant (fun h e hs hk => History.keepsClaims_step e hs hk)
      (sound_start st hfits hempty)
  · intro n t pos m hn hkeyed hkeep hopen hclaimed hfull hcap
    exact Endpoint.swallows_of_claimed hn pos hkeyed hkeep hopen hclaimed hfull hcap

section OneSlot

/-- An in-memory mailbox for one message, in the order of arrival, that answers with
errors. -/
def oneSlot : MailboxConfig := ⟨0, 1, 1, 0, 1, 0⟩

def oneSlotMailbox : Mailbox :=
  ⟨oneSlot, true, true, 1, 100, false, 0, 0, 0, [], .queue [], [], false⟩

def plainMessage (id key : String) : Message := ⟨id, "data", 3, key, 0, ∅⟩

def Readings.still (now : Nat) : Readings := ⟨now, now, now, le_rfl, le_rfl⟩

def oneSlotStore := InMemoryIdempotencyStore.keyStore 10 1000 "t" "ns"

theorem keyed_enqueue_retriable_roomy :
    Along (History.step oneSlotStore) (History.Retriable oneSlotStore)
      (.start oneSlotStore oneSlotMailbox)
      [.enqueue (.still 0) 0 (plainMessage "1" "k"), .receive,
        .enqueue (.still 1) 0 (plainMessage "2" "k")] := by
  have hnew : Mailbox.new ⟨none, none, none⟩ oneSlot = .ok oneSlotMailbox := rfl
  refine (keyed_enqueue_retriable oneSlotStore hnew).1 _ ⟨?_, trivial, ?_, trivial⟩
  · intro _ _
    exact .inl ⟨by decide, fun _ => ⟨rfl, by decide⟩⟩
  · intro _ _
    have hcheck : ((run (History.step oneSlotStore) (.start oneSlotStore oneSlotMailbox)
        [.enqueue (.still 0) 0 (plainMessage "1" "k"), .receive]).endpoint.checkKey oneSlotStore
          (.still 1) (plainMessage "2" "k")).1 = .turnedAway := by
      decide +kernel
    dsimp only [run, List.foldl_cons, List.foldl_nil] at hcheck
    rw [hcheck]
    trivial

/-- A message fills the mailbox, a keyed message is rejected, and the first is received. -/
def rejectedRun : List EndpointEvent :=
  [.enqueue (.still 0) 0 (plainMessage "1" ""), .enqueue (.still 1) 0 (plainMessage "2" "k"),
    .receive]

/-- The mailbox is full when the keyed message comes; once there is room again, the message
is left out of the empty mailbox. -/
theorem not_retriable :
    ¬∀ es, Along (History.step oneSlotStore) (History.Retriable oneSlotStore)
      (.start oneSlotStore oneSlotMailbox) es := by
  intro hall
  have hrun := hall (rejectedRun ++ [.enqueue (.still 2) 0 (plainMessage "2" "k")])
  have hstep := ((along_concat _ _ _ _).mp hrun).2 (by decide +kernel)
  have hanswer : ((run (History.step oneSlotStore) (.start oneSlotStore oneSlotMailbox)
      rejectedRun).endpoint.enqueue oneSlotStore (.still 2) 0 (plainMessage "2" "k")).1 =
        .ok () := by
    decide +kernel
  rcases hstep (.inl hanswer) with hqueued | ⟨time, hmem, -⟩
  · revert hqueued
    rintro ⟨hcounted, -⟩
    revert hcounted
    decide +kernel
  · have haccepted : (run (History.step oneSlotStore) (.start oneSlotStore oneSlotMailbox)
        rejectedRun).accepted = [("", 0)] := by
      decide +kernel
    rw [haccepted, List.mem_singleton] at hmem
    revert hmem
    simp [plainMessage]

end OneSlot

end PlexSpaces.Mailbox
