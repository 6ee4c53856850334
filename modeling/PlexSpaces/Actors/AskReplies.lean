import PlexSpaces.Actors.PendingAsks
import PlexSpaces.Lib.Numbered
/-!
# Asks and their replies

Whatever the interleaving of asks, replies and sweeps, the sending half of an ask's channel is
in one place at most: the table, or one reply that has taken it.  So an ask gets one reply at
most, and one that was meant for it; and as long as no other ask has its correlation id, the
sending half goes away before the ask's instant only by being used.
-/

namespace PlexSpaces.Actors

open PlexSpaces.Lib

namespace AskWorld

variable {w w' : AskWorld} {t r : Nat} {a : Ask}

/-- Another ask has the correlation id of the ask `t`. -/
def Contested (w : AskWorld) (t : Nat) : Prop :=
  ∃ (a : Ask) (t' : Nat) (b : Ask), w.asks[t]? = some a ∧ w.asks[t']? = some b ∧ t' ≠ t ∧
    b.correlationId = a.correlationId

def InTable (w : AskWorld) (t : Nat) : Prop :=
  ∃ cid e, w.pending.entries.lookup cid = some e ∧ e.tx = t

/-- The sending half has been taken by a reply. -/
def Held (w : AskWorld) (t : Nat) : Prop :=
  ∃ (r : Nat) (d : AskReply), w.replies[r]? = some d ∧ d.stage = .sending t

/-- An ask without a reply can still get one, or has lost its sending half to another ask with
its correlation id, or to its instant. -/
def Reachable (w : AskWorld) (t : Nat) (a : Ask) : Prop :=
  a.slot = none → w.InTable t ∨ w.Held t ∨ w.Contested t ∨ a.expiresAt ≤ w.now

/-- The ask's instant has passed, and what was sent to it was sent after that. -/
def Late (w : AskWorld) (a : Ask) : Prop :=
  a.expiresAt ≤ w.now ∧
    ∀ (r : Nat) (d : AskReply), a.slot = some r → w.replies[r]? = some d → a.expiresAt ≤ d.sentAt

def Sound (w : AskWorld) (t : Nat) (a : Ask) : Prop :=
  match a.phase with
  | .dispatching => w.Reachable t a
  | .failed _ => True
  | .waiting deadline => w.Reachable t a ∧ a.expiresAt ≤ deadline
  | .expired => w.Late a
  | .returned (.reply m) =>
      ∃ (r : Nat) (d : AskReply), a.slot = some r ∧ w.replies[r]? = some d ∧ d.message = m
  | .returned (.dispatchFailed _) => True
  | .returned .channelClosed => a.slot = none ∧ (w.Contested t ∨ a.expiresAt ≤ w.now)
  | .returned .timedOut => w.Late a
  | .dropped => True

/-- The reply `d` is meant for the ask `a`, and came after it had registered. -/
def Meant (a : Ask) (d : AskReply) : Prop :=
  a.correlationId = d.message.correlationId ∧ a.registeredAt ≤ d.arrivedAt

/-- The invariant: each sending half in one place, and every ask sound. -/
structure Good (w : AskWorld) : Prop where
  entry : ∀ cid e, w.pending.entries.lookup cid = some e →
    ∃ a : Ask, w.asks[e.tx]? = some a ∧ a.correlationId = cid ∧ e.expiresAt = a.expiresAt ∧
      a.slot = none ∧ ¬a.phase.isReturned
  single : ∀ cid (e : PendingAskEntry) (r : Nat) (d : AskReply),
    w.pending.entries.lookup cid = some e → w.replies[r]? = some d → d.stage ≠ .sending e.tx
  held : ∀ (r : Nat) (d : AskReply) (t : Nat), w.replies[r]? = some d → d.stage = .sending t →
    ∃ a : Ask, w.asks[t]? = some a ∧ a.slot = none ∧ Meant a d
  heldOnce : ∀ (r r' : Nat) (d d' : AskReply) (t : Nat), w.replies[r]? = some d →
    w.replies[r']? = some d' → d.stage = .sending t → d'.stage = .sending t → r = r'
  sent : ∀ (r : Nat) (d : AskReply) (t : Nat), w.replies[r]? = some d → d.stage = .sent t true →
    ∃ a : Ask, w.asks[t]? = some a ∧ a.slot = some r ∧ Meant a d
  filled : ∀ (t : Nat) (a : Ask) (r : Nat), w.asks[t]? = some a → a.slot = some r →
    ∃ d : AskReply, w.replies[r]? = some d ∧ d.stage = .sent t true
  registered : ∀ (t : Nat) (a : Ask), w.asks[t]? = some a → a.registeredAt ≤ w.now
  swept : w.sweepNow ≤ w.now
  sound : ∀ (t : Nat) (a : Ask), w.asks[t]? = some a → w.Sound t a

theorem start_good (defaultTimeout : Nat) : (start defaultTimeout).Good where
  entry _ _ h := by cases h
  single _ _ _ _ h := by cases h
  held _ _ _ h := by cases h
  heldOnce _ _ _ _ _ h := by cases h
  sent _ _ _ h := by cases h
  filled _ _ _ h := by cases h
  registered _ _ h := by cases h
  swept := Nat.le_refl 0
  sound _ _ h := by cases h

/-! ## What a step keeps -/

/-- The asks of `w` are in `w'` under their numbers, with their correlation ids. -/
def Keeps (w w' : AskWorld) : Prop :=
  ∀ (t : Nat) (a : Ask), w.asks[t]? = some a →
    ∃ a' : Ask, w'.asks[t]? = some a' ∧ a'.correlationId = a.correlationId

theorem Contested.mono (hkeeps : w.Keeps w') (h : w.Contested t) : w'.Contested t := by
  obtain ⟨a, t', b, ha, hb, hne, hcid⟩ := h
  obtain ⟨a', ha', hcid'⟩ := hkeeps t a ha
  obtain ⟨b', hb', hbcid⟩ := hkeeps t' b hb
  exact ⟨a', t', b', ha', hb', hne, by rw [hbcid, hcid, hcid']⟩

theorem keeps_of_asks_eq (h : w'.asks = w.asks) : w.Keeps w' :=
  fun _ a ha => ⟨a, by rw [h, ha], rfl⟩

theorem keeps_modify (f : Ask → Ask) (hf : ∀ a, (f a).correlationId = a.correlationId)
    (h : w'.asks = w.asks.modify t f) : w.Keeps w' := by
  intro s a ha
  rw [h]
  exact getElem?_modify_of_some (fun b => b.correlationId = a.correlationId)
    (fun b hb => (hf b).trans hb) ha rfl

/-- An ask that a step does not touch stays sound, if its sending half is still somewhere or was
lost in one of the two ways, and the replies stay what they were. -/
theorem Sound.mono (h : w.Sound t a) (hkeeps : w.Keeps w') (hnow : w.now ≤ w'.now)
    (hsender : a.slot = none → a.phase.isOpen → w.InTable t ∨ w.Held t →
      (∃ e, a.phase = .failed e) ∨ a.phase = .expired ∨
        w'.InTable t ∨ w'.Held t ∨ w'.Contested t ∨ a.expiresAt ≤ w'.now)
    (hreply : ∀ (r : Nat) (d : AskReply), a.slot = some r → w.replies[r]? = some d →
      w'.replies[r]? = some d)
    (hfilled : ∀ r : Nat, a.slot = some r → ∃ d : AskReply, w.replies[r]? = some d) :
    w'.Sound t a := by
  have hreach (hopen : a.phase.isOpen) (hfailed : ∀ e, a.phase ≠ .failed e)
      (hexpired : a.phase ≠ .expired) (h : w.Reachable t a) : w'.Reachable t a := by
    intro hslot
    rcases h hslot with hin | hheld | hcontested | hlate
    · exact ((hsender hslot hopen (Or.inl hin)).resolve_left
        fun ⟨e, he⟩ => hfailed e he).resolve_left hexpired
    · exact ((hsender hslot hopen (Or.inr hheld)).resolve_left
        fun ⟨e, he⟩ => hfailed e he).resolve_left hexpired
    · exact Or.inr (Or.inr (Or.inl (hcontested.mono hkeeps)))
    · exact Or.inr (Or.inr (Or.inr (Nat.le_trans hlate hnow)))
  have hlate (h : w.Late a) : w'.Late a := by
    refine ⟨Nat.le_trans h.1 hnow, fun r d hslot hd => ?_⟩
    obtain ⟨d₀, hd₀⟩ := hfilled r hslot
    have heq : d₀ = d := Option.some.inj ((hreply r d₀ hslot hd₀).symm.trans hd)
    rw [← heq]
    exact h.2 r d₀ hslot hd₀
  unfold Sound at h ⊢
  cases hphase : a.phase with
  | dispatching =>
      rw [hphase] at h hreach
      exact hreach rfl (by simp) (by simp) h
  | failed e => trivial
  | waiting deadline =>
      rw [hphase] at h hreach
      exact ⟨hreach rfl (by simp) (by simp) h.1, h.2⟩
  | expired =>
      rw [hphase] at h
      exact hlate h
  | returned outcome =>
      rw [hphase] at h
      cases outcome with
      | reply m =>
          obtain ⟨r, d, hslot, hd, hm⟩ := h
          exact ⟨r, d, hslot, hreply r d hslot hd, hm⟩
      | dispatchFailed e => trivial
      | channelClosed =>
          exact ⟨h.1, h.2.imp (fun hc => hc.mono hkeeps) fun hl => Nat.le_trans hl hnow⟩
      | timedOut => exact hlate h
  | dropped => trivial

theorem Good.setPhase {phase : AskPhase} (h : w.Good) (ha : w.asks[t]? = some a)
    (hreturned : phase.isReturned → ¬w.InTable t) (hsound : w.Sound t { a with phase := phase }) :
    (w.setPhase t phase).Good := by
  have hkeeps : w.Keeps (w.setPhase t phase) := 
    keeps_modify (fun a => { a with phase := phase }) (fun _ => rfl) rfl
  have hat {s : Nat} {b : Ask} (hb : (w.setPhase t phase).asks[s]? = some b) :
      (s = t ∧ b = { a with phase := phase }) ∨ (s ≠ t ∧ w.asks[s]? = some b) := by
    obtain ⟨b₀, hb₀, hbeq⟩ := getElem?_modify_eq_some.mp hb
    by_cases hst : t = s
    · subst hst
      rw [ha] at hb₀
      cases hb₀
      exact Or.inl ⟨rfl, by rw [hbeq, if_pos rfl]⟩
    · rw [if_neg hst] at hbeq
      exact Or.inr ⟨Ne.symm hst, by rw [hbeq, hb₀]⟩
  have hold {s : Nat} {b : Ask} (hb : w.asks[s]? = some b) :
      ∃ b' : Ask, (w.setPhase t phase).asks[s]? = some b' ∧ b'.correlationId = b.correlationId ∧
        b'.slot = b.slot ∧ b'.expiresAt = b.expiresAt ∧ b'.registeredAt = b.registeredAt :=
    getElem?_modify_of_some
      (fun c : Ask => c.correlationId = b.correlationId ∧ c.slot = b.slot ∧
        c.expiresAt = b.expiresAt ∧ c.registeredAt = b.registeredAt)
      (fun _ hc => hc) hb ⟨rfl, rfl, rfl, rfl⟩
  constructor
  case entry =>
    intro cid e he
    obtain ⟨b, hb, hcid, hexpires, hslot, hphase⟩ := h.entry cid e he
    by_cases het : e.tx = t
    · rw [het, ha] at hb
      cases hb
      refine ⟨{ a with phase := phase }, ?_, hcid, hexpires, hslot,
        fun hr => hreturned hr ⟨cid, e, he, het⟩⟩
      rw [het]
      exact getElem?_modify_self ha
    · exact ⟨b, (getElem?_modify_of_ne (Ne.symm het)).trans hb, hcid, hexpires, hslot, hphase⟩
  case single => exact h.single
  case held =>
    intro r d s hd hstage
    obtain ⟨b, hb, hslot, hcid, hreg⟩ := h.held r d s hd hstage
    obtain ⟨b', hb', hcid', hslot', -, hreg'⟩ := hold hb
    exact ⟨b', hb', hslot'.trans hslot, hcid'.trans hcid, hreg'.trans_le hreg⟩
  case heldOnce => exact h.heldOnce
  case sent =>
    intro r d s hd hstage
    obtain ⟨b, hb, hslot, hcid, hreg⟩ := h.sent r d s hd hstage
    obtain ⟨b', hb', hcid', hslot', -, hreg'⟩ := hold hb
    exact ⟨b', hb', hslot'.trans hslot, hcid'.trans hcid, hreg'.trans_le hreg⟩
  case filled =>
    intro s b r hb hslot
    rcases hat hb with ⟨rfl, rfl⟩ | ⟨-, hb⟩
    · exact h.filled s a r ha hslot
    · exact h.filled s b r hb hslot
  case registered =>
    intro s b hb
    rcases hat hb with ⟨rfl, rfl⟩ | ⟨-, hb⟩
    · exact h.registered s a ha
    · exact h.registered s b hb
  case swept => exact h.swept
  case sound =>
    intro s b hb
    have hstays {c : Ask} (hfilled : ∀ r : Nat, c.slot = some r →
        ∃ d : AskReply, w.replies[r]? = some d) (hc : w.Sound s c) :
        (w.setPhase t phase).Sound s c :=
      hc.mono hkeeps (Nat.le_refl _)
        (fun _ _ hin => Or.inr (Or.inr (hin.imp id Or.inl))) (fun _ _ _ hd => hd) hfilled
    rcases hat hb with ⟨rfl, rfl⟩ | ⟨-, hb⟩
    · exact hstays (fun r hr => (h.filled s a r ha hr).imp fun _ hd => hd.1) hsound
    · exact hstays (fun r hr => (h.filled s b r hb hr).imp fun _ hd => hd.1) (h.sound s b hb)

/-- The table loses entries, each of an ask that does not need it any more, that shares its
correlation id, or whose instant has passed. -/
theorem Good.lose {pending : PendingAsks} (h : w.Good)
    (hsub : ∀ cid e, pending.entries.lookup cid = some e →
      w.pending.entries.lookup cid = some e)
    (hlost : ∀ cid e (a : Ask), w.pending.entries.lookup cid = some e →
      pending.entries.lookup cid ≠ some e → w.asks[e.tx]? = some a →
      (∃ e, a.phase = .failed e) ∨ a.phase = .expired ∨ w.Contested e.tx ∨
        a.expiresAt ≤ w.now) :
    { w with pending := pending }.Good := by
  constructor
  case entry => exact fun cid e he => h.entry cid e (hsub cid e he)
  case single => exact fun cid e r d he => h.single cid e r d (hsub cid e he)
  case held => exact h.held
  case heldOnce => exact h.heldOnce
  case sent => exact h.sent
  case filled => exact h.filled
  case registered => exact h.registered
  case swept => exact h.swept
  case sound =>
    intro t a ha
    refine (h.sound t a ha).mono (keeps_of_asks_eq rfl) (Nat.le_refl _) ?_ (fun _ _ _ hd => hd)
      (fun r hr => (h.filled t a r ha hr).imp fun _ hd => hd.1)
    intro _ _ hin
    rcases hin with ⟨cid, e, he, rfl⟩ | hheld
    · by_cases hkept : pending.entries.lookup cid = some e
      · exact Or.inr (Or.inr (Or.inl ⟨cid, e, hkept, rfl⟩))
      · rcases hlost cid e a he hkept ha with hfailed | hexpired | hcontested | hlate
        · exact Or.inl hfailed
        · exact Or.inr (Or.inl hexpired)
        · exact Or.inr (Or.inr (Or.inr (Or.inr (Or.inl hcontested))))
        · exact Or.inr (Or.inr (Or.inr (Or.inr (Or.inr hlate))))
    · exact Or.inr (Or.inr (Or.inr (Or.inl hheld)))

/-! ## The steps -/

theorem Good.ne_length (_ : w.Good) (ha : w.asks[t]? = some a) : t ≠ w.asks.length := by
  rintro rfl
  rw [List.getElem?_eq_none (Nat.le_refl _)] at ha
  cases ha

theorem beginAsk_good (h : w.Good) (cid : String) (timeout : Nat) :
    (w.beginAsk cid timeout).Good := by
  set new : Ask := ⟨cid, timeout, w.now, none, .dispatching⟩ with hnew
  have hself : (w.beginAsk cid timeout).asks[w.asks.length]? = some new :=
    List.getElem?_concat_length
  have hold {t : Nat} {a : Ask} (ha : w.asks[t]? = some a) :
      (w.beginAsk cid timeout).asks[t]? = some a := getElem?_concat_of_some ha
  have hkeeps : w.Keeps (w.beginAsk cid timeout) := fun t a ha => ⟨a, hold ha, rfl⟩
  have hlookup (k : String) : (w.beginAsk cid timeout).pending.entries.lookup k =
      if k = cid then some ⟨w.asks.length, w.now + timeout⟩ else w.pending.entries.lookup k :=
    Assoc.lookup_insert _ _ _ _
  constructor
  case entry =>
    intro k e he
    rw [hlookup] at he
    split_ifs at he with hk
    · cases he
      exact ⟨new, hself, hk.symm, rfl, rfl, Bool.false_ne_true⟩
    · obtain ⟨a, ha, hrest⟩ := h.entry k e he
      exact ⟨a, hold ha, hrest⟩
  case single =>
    intro k e r d he hd hstage
    rw [hlookup] at he
    split_ifs at he with hk
    · cases he
      obtain ⟨a, ha, -⟩ := h.held r d _ hd hstage
      exact h.ne_length ha rfl
    · exact h.single k e r d he hd hstage
  case held =>
    intro r d t hd hstage
    obtain ⟨a, ha, hrest⟩ := h.held r d t hd hstage
    exact ⟨a, hold ha, hrest⟩
  case heldOnce => exact h.heldOnce
  case sent =>
    intro r d t hd hstage
    obtain ⟨a, ha, hrest⟩ := h.sent r d t hd hstage
    exact ⟨a, hold ha, hrest⟩
  case filled =>
    intro t a r ha hslot
    rcases getElem?_concat_eq_some.mp ha with ha | ⟨rfl, rfl⟩
    · exact h.filled t a r ha hslot
    · cases hslot
  case registered =>
    intro t a ha
    rcases getElem?_concat_eq_some.mp ha with ha | ⟨rfl, rfl⟩
    · exact h.registered t a ha
    · exact Nat.le_refl _
  case swept => exact h.swept
  case sound =>
    intro t a ha
    rcases getElem?_concat_eq_some.mp ha with ha | ⟨rfl, rfl⟩
    · refine (h.sound t a ha).mono hkeeps (Nat.le_refl _) ?_ (fun _ _ _ hd => hd)
        (fun r hr => (h.filled t a r ha hr).imp fun _ hd => hd.1)
      intro _ _ hin
      rcases hin with ⟨k, e, he, rfl⟩ | hheld
      · by_cases hk : k = cid
        · obtain ⟨b, hb, hcid, -⟩ := h.entry k e he
          rw [ha] at hb
          cases hb
          -- the new ask has put its own entry in the place of this one
          exact Or.inr (Or.inr (Or.inr (Or.inr (Or.inl
            ⟨a, w.asks.length, new, hold ha, hself, (h.ne_length ha).symm,
              by rw [hcid, hk]⟩))))
        · exact Or.inr (Or.inr (Or.inl ⟨k, e, by rw [hlookup, if_neg hk, he], rfl⟩))
      · exact Or.inr (Or.inr (Or.inr (Or.inl hheld)))
    · intro _
      exact Or.inl ⟨cid, _, by rw [hlookup, if_pos rfl], rfl⟩

/-- An ask that has not returned may get on to a phase in which it is sound. -/
theorem Good.advance {phase : AskPhase} (h : w.Good) (ha : w.asks[t]? = some a)
    (hphase : ¬phase.isReturned) (hsound : w.Sound t { a with phase := phase }) :
    (w.setPhase t phase).Good :=
  h.setPhase ha (fun hr => absurd hr hphase) hsound

theorem dispatched_good (h : w.Good) (t : Nat) (result : Except ActorRegistryError Unit) :
    (w.dispatched t result).Good := by
  unfold dispatched
  split
  · rename_i cid timeout registeredAt slot ha
    have hreach := h.sound t _ ha
    cases result with
    | ok _ =>
        have hreg : registeredAt ≤ w.now := h.registered t _ ha
        refine h.advance ha Bool.false_ne_true ⟨hreach, ?_⟩
        show registeredAt + timeout ≤ w.now + timeout
        omega
    | error e => exact h.advance ha Bool.false_ne_true trivial
  · exact h

theorem hasSender_iff : w.hasSender t ↔ w.InTable t ∨ w.Held t := by
  rw [hasSender, Bool.or_eq_true, List.any_eq_true, List.any_eq_true]
  refine or_congr ?_ ?_
  · constructor
    · rintro ⟨e, he, htx⟩
      obtain ⟨cid, hcid⟩ := Assoc.mem_values.mp he
      exact ⟨cid, e, hcid, eq_of_beq htx⟩
    · rintro ⟨cid, e, he, htx⟩
      exact ⟨e, Assoc.mem_values.mpr ⟨cid, he⟩, beq_iff_eq.mpr htx⟩
  · constructor
    · rintro ⟨d, hd, hstage⟩
      obtain ⟨r, hr⟩ := List.mem_iff_getElem?.mp hd
      exact ⟨r, d, hr, eq_of_beq hstage⟩
    · rintro ⟨r, d, hd, hstage⟩
      exact ⟨d, List.mem_of_getElem? hd, beq_iff_eq.mpr hstage⟩

theorem Good.not_inTable_of_slot (h : w.Good) (ha : w.asks[t]? = some a)
    (hslot : a.slot = some r) : ¬w.InTable t := by
  rintro ⟨cid, e, he, rfl⟩
  obtain ⟨b, hb, -, -, hnone, -⟩ := h.entry cid e he
  rw [ha] at hb
  cases hb
  rw [hslot] at hnone
  cases hnone

theorem poll_good (h : w.Good) (t : Nat) : (w.poll t).Good := by
  unfold poll
  split
  · rename_i cid timeout registeredAt slot deadline ha
    obtain ⟨hreach, hdeadline⟩ := h.sound t _ ha
    have hfilled (r : Nat) (hslot : slot = some r) :
        ∃ d : AskReply, w.replies[r]? = some d :=
      (h.filled t _ r ha hslot).imp fun _ hd => hd.1
    split
    · rename_i d hd
      obtain ⟨r, hslot, hr⟩ := Option.bind_eq_some_iff.mp hd
      exact h.setPhase ha (fun _ => h.not_inTable_of_slot ha hslot) ⟨r, d, hslot, hr, rfl⟩
    · rename_i hnone
      have hslot : slot = none := by
        cases hslot : slot with
        | none => rfl
        | some r =>
            obtain ⟨d, hd⟩ := hfilled r hslot
            rw [hslot, Option.bind_some, hd] at hnone
            cases hnone
      split_ifs with hsender hlate
      · have hgone : ¬(w.InTable t ∨ w.Held t) := by
          rw [← hasSender_iff]
          simpa using hsender
        refine h.setPhase ha (fun _ hin => hgone (Or.inl hin)) ⟨hslot, ?_⟩
        rcases hreach hslot with hin | hheld | hcontested | hlate
        · exact absurd (Or.inl hin) hgone
        · exact absurd (Or.inr hheld) hgone
        · exact Or.inl hcontested
        · exact Or.inr hlate
      · refine h.advance ha Bool.false_ne_true ⟨Nat.le_trans hdeadline hlate, ?_⟩
        intro r d hr _
        exact absurd (hslot.symm.trans hr) (by simp)
      · exact h
  · exact h

theorem lookup_cancel (p : PendingAsks) (cid k : String) :
    (p.cancel cid).entries.lookup k = if k = cid then none else p.entries.lookup k :=
  Assoc.lookup_erase _ _ _

/-- `cancel` takes an entry away from its own ask, or from one that shares the correlation id. -/
theorem Good.cancel (h : w.Good) (ha : w.asks[t]? = some a)
    (hphase : (∃ e, a.phase = .failed e) ∨ a.phase = .expired) :
    { w with pending := w.pending.cancel a.correlationId }.Good := by
  refine h.lose ?_ ?_
  · intro cid e he
    rw [lookup_cancel] at he
    split_ifs at he
    exact he
  · intro cid e b he hlost hb
    have hcid : cid = a.correlationId := by
      by_contra hne
      exact hlost (by rw [lookup_cancel, if_neg hne, he])
    obtain ⟨b', hb', hbcid, -⟩ := h.entry cid e he
    rw [hb] at hb'
    cases hb'
    by_cases htx : e.tx = t
    · rw [htx, ha] at hb
      cases hb
      exact hphase.imp id Or.inl
    · exact Or.inr (Or.inr (Or.inl ⟨b, t, a, hb, ha, Ne.symm htx, by rw [hbcid, hcid]⟩))

theorem Good.not_inTable_cancel (h : w.Good) (ha : w.asks[t]? = some a) :
    ¬{ w with pending := w.pending.cancel a.correlationId }.InTable t := by
  rintro ⟨cid, e, he, rfl⟩
  change (w.pending.cancel a.correlationId).entries.lookup cid = some e at he
  rw [lookup_cancel] at he
  split_ifs at he with hne
  obtain ⟨b, hb, hcid, -⟩ := h.entry cid e he
  rw [ha] at hb
  cases hb
  exact hne hcid.symm

theorem cancelAsk_good (h : w.Good) (t : Nat) : (w.cancelAsk t).Good := by
  unfold cancelAsk
  split
  · rename_i cid timeout registeredAt slot e ha
    exact (h.cancel ha (Or.inl ⟨e, rfl⟩)).setPhase ha (fun _ => h.not_inTable_cancel ha) trivial
  · rename_i cid timeout registeredAt slot ha
    exact (h.cancel ha (Or.inr rfl)).setPhase ha (fun _ => h.not_inTable_cancel ha)
      (h.sound t _ ha)
  · exact h

theorem dropAsk_good (h : w.Good) (t : Nat) : (w.dropAsk t).Good := by
  unfold dropAsk
  split
  · rename_i ha
    exact h.advance ha Bool.false_ne_true trivial
  · rename_i ha
    exact h.advance ha Bool.false_ne_true trivial
  · exact h

/-- A reply that holds what its entry held, if there was one. -/
theorem replied_good (h : w.Good) (message : AskMessage) {stage : ReplyStage}
    (hstage : ∀ {t}, stage = .sending t →
      ∃ e, w.pending.entries.lookup message.correlationId = some e ∧ e.tx = t)
    (htaken : ∀ {e}, w.pending.entries.lookup message.correlationId = some e →
      stage = .sending e.tx)
    (hunsent : ∀ {t}, stage ≠ .sent t true) :
    { w with
      pending := w.pending.cancel message.correlationId
      replies := w.replies ++ [AskReply.mk message w.now w.now stage] }.Good := by
  set cid := message.correlationId
  set new : AskReply := ⟨message, w.now, w.now, stage⟩
  have hkept {k : String} {e : PendingAskEntry}
      (he : (w.pending.cancel cid).entries.lookup k = some e) :
      k ≠ cid ∧ w.pending.entries.lookup k = some e := by
    rw [lookup_cancel] at he
    split_ifs at he with hne
    exact ⟨hne, he⟩
  have hold {r : Nat} {d : AskReply} (hd : w.replies[r]? = some d) :
      (w.replies ++ [new])[r]? = some d := getElem?_concat_of_some hd
  constructor
  case entry => exact fun k e he => h.entry k e (hkept he).2
  case single =>
    intro k e r d he hd hs
    obtain ⟨hne, he⟩ := hkept he
    rcases getElem?_concat_eq_some.mp hd with hd | ⟨rfl, rfl⟩
    · exact h.single k e r d he hd hs
    · obtain ⟨e', he', htx⟩ := hstage hs
      obtain ⟨a, ha, hk, -⟩ := h.entry k e he
      obtain ⟨a', ha', hk', -⟩ := h.entry cid e' he'
      rw [htx, ha] at ha'
      cases ha'
      exact hne (hk.symm.trans hk')
  case held =>
    intro r d t hd hs
    rcases getElem?_concat_eq_some.mp hd with hd | ⟨rfl, rfl⟩
    · exact h.held r d t hd hs
    · obtain ⟨e, he, rfl⟩ := hstage hs
      obtain ⟨a, ha, hk, -, hslot, -⟩ := h.entry cid e he
      exact ⟨a, ha, hslot, hk, h.registered _ a ha⟩
  case heldOnce =>
    intro r r' d d' t hd hd' hs hs'
    rcases getElem?_concat_eq_some.mp hd with hd | ⟨rfl, rfl⟩ <;>
      rcases getElem?_concat_eq_some.mp hd' with hd' | ⟨rfl, rfl⟩
    · exact h.heldOnce r r' d d' t hd hd' hs hs'
    · obtain ⟨e, he, rfl⟩ := hstage hs'
      exact absurd hs (h.single cid e r d he hd)
    · obtain ⟨e, he, rfl⟩ := hstage hs
      exact absurd hs' (h.single cid e r' d' he hd')
    · rfl
  case sent =>
    intro r d t hd hs
    rcases getElem?_concat_eq_some.mp hd with hd | ⟨rfl, rfl⟩
    · exact h.sent r d t hd hs
    · exact absurd hs hunsent
  case filled =>
    intro t a r ha hslot
    obtain ⟨d, hd, hs⟩ := h.filled t a r ha hslot
    exact ⟨d, hold hd, hs⟩
  case registered => exact h.registered
  case swept => exact h.swept
  case sound =>
    intro t a ha
    refine (h.sound t a ha).mono (keeps_of_asks_eq rfl) (Nat.le_refl _) ?_
      (fun _ _ _ hd => hold hd) (fun r hr => (h.filled t a r ha hr).imp fun _ hd => hd.1)
    intro _ _ hin
    rcases hin with ⟨k, e, he, rfl⟩ | ⟨r, d, hd, hs⟩
    · by_cases hk : k = cid
      · -- the reply holds the sending half from now on
        subst hk
        refine Or.inr (Or.inr (Or.inr (Or.inl ⟨w.replies.length, new,
          List.getElem?_concat_length, htaken he⟩)))
      · exact Or.inr (Or.inr (Or.inl ⟨k, e, by
          show (w.pending.cancel cid).entries.lookup k = some e
          rw [lookup_cancel, if_neg hk, he], rfl⟩))
    · exact Or.inr (Or.inr (Or.inr (Or.inl ⟨r, d, hold hd, hs⟩)))

/-- A reply takes the entry of its correlation id out of the table, if there is one. -/
theorem reply_good (h : w.Good) (message : AskMessage) : (w.reply message).Good := by
  unfold reply
  split_ifs with hempty
  · exact h
  apply replied_good h message
  · intro t hs
    split at hs
    · next e he => exact ⟨e, he, ReplyStage.sending.inj hs⟩
    · cases hs
  · intro e he
    simp only [he]
  · intro t
    split <;> simp

/-- What stands under a number after the reply `r` has been sent. -/
theorem getElem?_setStage {d : AskReply} {stage : ReplyStage} (s : Nat) :
    (w.setStage r stage).replies[s]? = some d ↔ ∃ d₀, w.replies[s]? = some d₀ ∧
      d = if r = s then { d₀ with stage := stage, sentAt := w.now } else d₀ :=
  getElem?_modify_eq_some

theorem Good.deliver (h : w.Good) {d : AskReply} (hd : w.replies[r]? = some d)
    (hstage : d.stage = .sending t) (ha : w.asks[t]? = some a) (hopen : a.phase.isOpen) :
    ((w.setSlot t r).setStage r (.sent t true)).Good := by
  obtain ⟨a₀, ha₀, hslot, hmeant⟩ := h.held r d t hd hstage
  rw [ha] at ha₀
  cases ha₀
  set w' := (w.setSlot t r).setStage r (.sent t true) with hw'
  set sent : AskReply := { d with stage := .sent t true, sentAt := w.now } with hsent
  have hkeeps : w.Keeps w' := keeps_modify (fun a => { a with slot := some r }) (fun _ => rfl) rfl
  have hnew : w'.asks[t]? = some { a with slot := some r } := getElem?_modify_self ha
  have hother {s : Nat} (hne : s ≠ t) : w'.asks[s]? = w.asks[s]? :=
    getElem?_modify_of_ne (Ne.symm hne)
  have hself : w'.replies[r]? = some sent := getElem?_modify_self hd
  have hrest {s : Nat} (hne : s ≠ r) : w'.replies[s]? = w.replies[s]? :=
    getElem?_modify_of_ne (Ne.symm hne)
  -- no ask had this reply before
  have hfresh {s : Nat} {b : Ask} {r' : Nat} (hb : w.asks[s]? = some b)
      (hr' : b.slot = some r') : r' ≠ r := by
    rintro rfl
    obtain ⟨d', hd', hs'⟩ := h.filled s b r' hb hr'
    rw [hd] at hd'
    cases hd'
    rw [hstage] at hs'
    cases hs'
  have hback {s : Nat} {d' : AskReply} (hd' : w'.replies[s]? = some d') :
      (s = r ∧ d' = sent) ∨ (s ≠ r ∧ w.replies[s]? = some d') := by
    by_cases hs : s = r
    · subst hs
      rw [hself] at hd'
      cases hd'
      exact Or.inl ⟨rfl, rfl⟩
    · exact Or.inr ⟨hs, by rw [← hrest hs, hd']⟩
  have hnotin : ¬w.InTable t := by
    rintro ⟨cid, e, he, rfl⟩
    exact h.single cid e r d he hd hstage
  constructor
  case entry =>
    intro cid e he
    obtain ⟨b, hb, hrest'⟩ := h.entry cid e he
    exact ⟨b, by rw [hother fun htx => hnotin ⟨cid, e, he, htx⟩, hb], hrest'⟩
  case single =>
    intro cid e s d' he hd' hs
    rcases hback hd' with ⟨rfl, rfl⟩ | ⟨-, hd'⟩
    · cases hs
    · exact h.single cid e s d' he hd' hs
  case held =>
    intro s d' u hd' hs
    rcases hback hd' with ⟨rfl, rfl⟩ | ⟨hne, hd₀⟩
    · cases hs
    · obtain ⟨b, hb, hrest'⟩ := h.held s d' u hd₀ hs
      have hut : u ≠ t := by
        rintro rfl
        exact hne (h.heldOnce s r d' d u hd₀ hd hs hstage)
      exact ⟨b, by rw [hother hut, hb], hrest'⟩
  case heldOnce =>
    intro s s' d₁ d₂ u hd₁ hd₂ hs₁ hs₂
    rcases hback hd₁ with ⟨rfl, rfl⟩ | ⟨-, hd₁⟩
    · cases hs₁
    · rcases hback hd₂ with ⟨rfl, rfl⟩ | ⟨-, hd₂⟩
      · cases hs₂
      · exact h.heldOnce s s' d₁ d₂ u hd₁ hd₂ hs₁ hs₂
  case sent =>
    intro s d' u hd' hs
    rcases hback hd' with ⟨rfl, rfl⟩ | ⟨-, hd'⟩
    · cases hs
      exact ⟨_, hnew, rfl, hmeant⟩
    · obtain ⟨b, hb, hbslot, hrest'⟩ := h.sent s d' u hd' hs
      have hut : u ≠ t := by
        rintro rfl
        rw [ha] at hb
        cases hb
        rw [hslot] at hbslot
        cases hbslot
      exact ⟨b, by rw [hother hut, hb], hbslot, hrest'⟩
  case filled =>
    intro s b r' hb hr'
    by_cases hs : s = t
    · subst hs
      rw [hnew] at hb
      cases hb
      cases hr'
      exact ⟨sent, hself, rfl⟩
    · rw [hother hs] at hb
      obtain ⟨d', hd', hs'⟩ := h.filled s b r' hb hr'
      exact ⟨d', by rw [hrest (hfresh hb hr'), hd'], hs'⟩
  case registered =>
    intro s b hb
    by_cases hs : s = t
    · subst hs
      rw [hnew] at hb
      cases hb
      exact h.registered s a ha
    · rw [hother hs] at hb
      exact h.registered s b hb
  case swept => exact h.swept
  case sound =>
    intro s b hb
    by_cases hs : s = t
    · subst hs
      rw [hnew] at hb
      cases hb
      have hsound := h.sound s a ha
      have hanswered : w'.Reachable s { a with slot := some r } := fun hnone => by cases hnone
      unfold Sound at hsound ⊢
      cases hphase : a.phase with
      | dispatching => exact hanswered
      | failed e => trivial
      | waiting deadline =>
          rw [hphase] at hsound
          exact ⟨hanswered, hsound.2⟩
      | expired =>
          rw [hphase] at hsound
          refine ⟨hsound.1, fun r' d' hr' hd' => ?_⟩
          cases hr'
          rw [hself] at hd'
          cases hd'
          exact hsound.1
      | returned outcome =>
          rw [hphase] at hopen
          cases hopen
      | dropped =>
          rw [hphase] at hopen
          cases hopen
    · rw [hother hs] at hb
      refine (h.sound s b hb).mono hkeeps (Nat.le_refl _) ?_
        (fun r' d' hr' hd' => by rw [hrest (hfresh hb hr'), hd'])
        (fun r' hr' => (h.filled s b r' hb hr').imp fun _ hd => hd.1)
      intro _ _ hin
      rcases hin with hin | ⟨r', d', hd', hs'⟩
      · exact Or.inr (Or.inr (Or.inl hin))
      · have hne : r' ≠ r := by
          rintro rfl
          rw [hd] at hd'
          cases hd'
          rw [hstage] at hs'
          exact hs (ReplyStage.sending.inj hs').symm
        exact Or.inr (Or.inr (Or.inr (Or.inl ⟨r', d', by rw [hrest hne, hd'], hs'⟩)))

/-- A reply is sent when its ask does not listen any more. -/
theorem Good.miss (h : w.Good) {d : AskReply} (hd : w.replies[r]? = some d)
    (hstage : d.stage = .sending t) (ha : w.asks[t]? = some a) (hclosed : ¬a.phase.isOpen) :
    (w.setStage r (.sent t false)).Good := by
  set w' := w.setStage r (.sent t false) with hw'
  have hback {s : Nat} {d' : AskReply} (hd' : w'.replies[s]? = some d') :
      d'.stage = .sent t false ∨ w.replies[s]? = some d' := by
    obtain ⟨d₀, hd₀, rfl⟩ := (getElem?_setStage s).mp hd'
    split_ifs
    · exact Or.inl rfl
    · exact Or.inr hd₀
  have hrest {s : Nat} (hne : s ≠ r) : w'.replies[s]? = w.replies[s]? :=
    getElem?_modify_of_ne (Ne.symm hne)
  have hfresh {s : Nat} {b : Ask} {r' : Nat} (hb : w.asks[s]? = some b)
      (hr' : b.slot = some r') : r' ≠ r := by
    rintro rfl
    obtain ⟨d', hd', hs'⟩ := h.filled s b r' hb hr'
    rw [hd] at hd'
    cases hd'
    rw [hstage] at hs'
    cases hs'
  constructor
  case entry => exact h.entry
  case single =>
    intro cid e s d' he hd' hs
    rcases hback hd' with hsent | hd'
    · rw [hs] at hsent
      cases hsent
    · exact h.single cid e s d' he hd' hs
  case held =>
    intro s d' u hd' hs
    rcases hback hd' with hsent | hd'
    · rw [hs] at hsent
      cases hsent
    · exact h.held s d' u hd' hs
  case heldOnce =>
    intro s s' d₁ d₂ u hd₁ hd₂ hs₁ hs₂
    rcases hback hd₁ with hsent | hd₁
    · rw [hs₁] at hsent
      cases hsent
    · rcases hback hd₂ with hsent | hd₂
      · rw [hs₂] at hsent
        cases hsent
      · exact h.heldOnce s s' d₁ d₂ u hd₁ hd₂ hs₁ hs₂
  case sent =>
    intro s d' u hd' hs
    rcases hback hd' with hsent | hd'
    · rw [hs] at hsent
      cases hsent
    · exact h.sent s d' u hd' hs
  case filled =>
    intro s b r' hb hr'
    obtain ⟨d', hd', hs'⟩ := h.filled s b r' hb hr'
    exact ⟨d', by rw [hrest (hfresh hb hr'), hd'], hs'⟩
  case registered => exact h.registered
  case swept => exact h.swept
  case sound =>
    intro s b hb
    change w.asks[s]? = some b at hb
    refine (h.sound s b hb).mono (keeps_of_asks_eq rfl) (Nat.le_refl _) ?_
      (fun r' d' hr' hd' => by rw [hrest (hfresh hb hr'), hd'])
      (fun r' hr' => (h.filled s b r' hb hr').imp fun _ hd => hd.1)
    intro _ hopen hin
    rcases hin with hin | ⟨r', d', hd', hs'⟩
    · exact Or.inr (Or.inr (Or.inl hin))
    · have hne : r' ≠ r := by
        rintro rfl
        rw [hd] at hd'
        cases hd'
        rw [hstage] at hs'
        cases hs'
        rw [ha] at hb
        cases hb
        exact hclosed hopen
      exact Or.inr (Or.inr (Or.inr (Or.inl ⟨r', d', by rw [hrest hne, hd'], hs'⟩)))

theorem send_good (h : w.Good) (r : Nat) : (w.send r).Good := by
  unfold send
  split
  · rename_i message arrivedAt sentAt t hd
    obtain ⟨a, ha, -⟩ := h.held r _ t hd rfl
    rw [ha]
    show (if a.phase.isOpen then _ else _ : AskWorld).Good
    split_ifs with hopen
    · exact h.deliver hd rfl ha hopen
    · exact h.miss hd rfl ha hopen
  · exact h

/-- The sweep takes entries whose instant has passed when it began, and so has passed now. -/
theorem sweepShard_good (shardOf : String → Fin PendingAsks.shardAmount)
    (k : Fin PendingAsks.shardAmount) (h : w.Good) :
    { w with pending := w.pending.sweepShard shardOf k w.sweepNow }.Good := by
  refine h.lose ?_ ?_
  · intro cid e he
    change (Assoc.retain _ w.pending.entries).lookup cid = some e at he
    rw [Assoc.lookup_retain] at he
    exact (Option.filter_eq_some_iff.mp he).1
  · intro cid e a he hlost ha
    change (Assoc.retain _ w.pending.entries).lookup cid ≠ some e at hlost
    rw [Assoc.lookup_retain, he, Option.filter_some] at hlost
    have hexpired : e.expiresAt ≤ w.sweepNow := by
      by_contra hlive
      exact hlost (if_pos (by simp [hlive]))
    obtain ⟨b, hb, -, hexpires, -⟩ := h.entry cid e he
    rw [ha] at hb
    cases hb
    rw [hexpires] at hexpired
    exact Or.inr (Or.inr (Or.inr (Nat.le_trans hexpired h.swept)))

theorem Good.later (h : w.Good) (d : Nat) : { w with now := w.now + d }.Good where
  entry := h.entry
  single := h.single
  held := h.held
  heldOnce := h.heldOnce
  sent := h.sent
  filled := h.filled
  registered t a ha := Nat.le_trans (h.registered t a ha) (Nat.le_add_right _ _)
  swept := Nat.le_trans h.swept (Nat.le_add_right _ _)
  sound t a ha :=
    (h.sound t a ha).mono (keeps_of_asks_eq rfl) (Nat.le_add_right _ _)
      (fun _ _ hin => Or.inr (Or.inr (hin.imp id Or.inl))) (fun _ _ _ hd => hd)
      (fun r hr => (h.filled t a r ha hr).imp fun _ hd => hd.1)

theorem Good.sweepStart (h : w.Good) : { w with sweepNow := w.now }.Good where
  entry := h.entry
  single := h.single
  held := h.held
  heldOnce := h.heldOnce
  sent := h.sent
  filled := h.filled
  registered := h.registered
  swept := Nat.le_refl _
  sound t a ha :=
    (h.sound t a ha).mono (keeps_of_asks_eq rfl) (Nat.le_refl _)
      (fun _ _ hin => Or.inr (Or.inr (hin.imp id Or.inl))) (fun _ _ _ hd => hd)
      (fun r hr => (h.filled t a r ha hr).imp fun _ hd => hd.1)

variable {shardOf : String → Fin PendingAsks.shardAmount}

theorem step_good (h : w.Good) (action : AskAction) : (step shardOf w action).Good := by
  cases action with
  | tick d => exact h.later d
  | ask cid timeout => exact beginAsk_good h cid timeout
  | dispatched t result => exact dispatched_good h t result
  | poll t => exact poll_good h t
  | cancel t => exact cancelAsk_good h t
  | drop t => exact dropAsk_good h t
  | reply message => exact reply_good h message
  | send r => exact send_good h r
  | sweepStart => exact h.sweepStart
  | sweepShard k => exact sweepShard_good shardOf k h

theorem run_good (defaultTimeout : Nat) (actions : List AskAction) :
    (run (step shardOf) (start defaultTimeout) actions).Good :=
  run_invariant (I := Good) (fun action _ _ h => step_good h action) (start_good defaultTimeout)

/-! ## What every ask can rely on -/

/-- No other ask has had the correlation id of the ask `t`. -/
def Alone (w : AskWorld) (t : Nat) (a : Ask) : Prop :=
  ∀ (t' : Nat) (b : Ask), w.asks[t']? = some b → t' ≠ t → b.correlationId ≠ a.correlationId

/-- What holds of the asks and the replies at every moment. -/
structure Answered (w : AskWorld) : Prop where
  /-- A reply that an ask returns was meant for it, came after it had registered, and its
  `resolve` has told the replier that it was delivered. -/
  own : ∀ (t : Nat) (a : Ask) (m : AskMessage), w.asks[t]? = some a →
    a.phase = .returned (.reply m) →
    ∃ (r : Nat) (d : AskReply), w.replies[r]? = some d ∧ d.message = m ∧
      d.stage = .sent t true ∧ Meant a d
  /-- At most one reply is delivered to an ask. -/
  once : ∀ (r r' : Nat) (d d' : AskReply) (t : Nat), w.replies[r]? = some d →
    w.replies[r']? = some d' → d.stage = .sent t true → d'.stage = .sent t true → r = r'
  /-- An ask to which a reply was delivered returns that reply, unless its dispatch has failed
  or the reply was sent at its instant or later. -/
  delivered : ∀ (r : Nat) (d : AskReply) (t : Nat), w.replies[r]? = some d →
    d.stage = .sent t true → ∃ a : Ask, w.asks[t]? = some a ∧ Meant a d ∧
      ∀ outcome, a.phase = .returned outcome → outcome = .reply d.message ∨
        (∃ e, outcome = .dispatchFailed e) ∨ (outcome = .timedOut ∧ a.expiresAt ≤ d.sentAt)
  /-- An ask whose correlation id is its own does not give up before its instant. -/
  patient : ∀ (t : Nat) (a : Ask) (outcome : AskOutcome), w.asks[t]? = some a →
    a.phase = .returned outcome → w.Alone t a → w.now < a.expiresAt →
    (∃ m, outcome = .reply m) ∨ ∃ e, outcome = .dispatchFailed e
  /-- Before its instant, such an ask can be replied to as long as it has not been. -/
  reachable : ∀ (t : Nat) (a : Ask), w.asks[t]? = some a →
    (a.phase = .dispatching ∨ ∃ deadline, a.phase = .waiting deadline) → w.Alone t a →
    w.now < a.expiresAt → a.slot = none →
    (w.pending.entries.lookup a.correlationId = some ⟨t, a.expiresAt⟩) ∨ w.Held t
  /-- An entry is that of an ask that has not returned and has no reply. -/
  needed : ∀ cid e, w.pending.entries.lookup cid = some e → ∃ a : Ask,
    w.asks[e.tx]? = some a ∧ a.correlationId = cid ∧ e.expiresAt = a.expiresAt ∧
      a.slot = none ∧ ¬a.phase.isReturned

theorem Alone.not_contested (h : w.Alone t a) (ha : w.asks[t]? = some a) : ¬w.Contested t := by
  rintro ⟨a', t', b, ha', hb, hne, hcid⟩
  rw [ha] at ha'
  cases ha'
  exact h t' b hb hne hcid

theorem Good.delivered (h : w.Good) {d : AskReply} (hd : w.replies[r]? = some d)
    (hstage : d.stage = .sent t true) : ∃ a : Ask, w.asks[t]? = some a ∧ Meant a d ∧
      ∀ outcome, a.phase = .returned outcome → outcome = .reply d.message ∨
        (∃ e, outcome = .dispatchFailed e) ∨ (outcome = .timedOut ∧ a.expiresAt ≤ d.sentAt) := by
  obtain ⟨a, ha, hslot, hmeant⟩ := h.sent r d t hd hstage
  refine ⟨a, ha, hmeant, fun outcome hphase => ?_⟩
  have hsound := h.sound t a ha
  unfold Sound at hsound
  rw [hphase] at hsound
  cases outcome with
  | reply m =>
      obtain ⟨r', d', hslot', hd', rfl⟩ := hsound
      rw [hslot] at hslot'
      cases hslot'
      rw [hd] at hd'
      cases hd'
      exact Or.inl rfl
  | dispatchFailed e => exact Or.inr (Or.inl ⟨e, rfl⟩)
  | channelClosed =>
      rw [hslot] at hsound
      cases hsound.1
  | timedOut => exact Or.inr (Or.inr ⟨rfl, hsound.2 r d hslot hd⟩)

theorem Good.answered (h : w.Good) : w.Answered where
  own t a m ha hphase := by
    have hsound := h.sound t a ha
    unfold Sound at hsound
    rw [hphase] at hsound
    obtain ⟨r, d, hslot, hd, hm⟩ := hsound
    obtain ⟨d', hd', hstage⟩ := h.filled t a r ha hslot
    rw [hd] at hd'
    cases hd'
    obtain ⟨a', ha', -, hmeant⟩ := h.sent r d t hd hstage
    rw [ha] at ha'
    cases ha'
    exact ⟨r, d, hd, hm, hstage, hmeant⟩
  once r r' d d' t hd hd' hs hs' := by
    obtain ⟨a, ha, hslot, -⟩ := h.sent r d t hd hs
    obtain ⟨a', ha', hslot', -⟩ := h.sent r' d' t hd' hs'
    rw [ha] at ha'
    cases ha'
    exact Option.some.inj (hslot.symm.trans hslot')
  delivered r d t hd hstage := h.delivered hd hstage
  patient t a outcome ha hphase halone hearly := by
    have hsound := h.sound t a ha
    unfold Sound at hsound
    rw [hphase] at hsound
    cases outcome with
    | reply m => exact Or.inl ⟨m, rfl⟩
    | dispatchFailed e => exact Or.inr ⟨e, rfl⟩
    | channelClosed =>
        rcases hsound.2 with hcontested | hlate
        · exact absurd hcontested (halone.not_contested ha)
        · omega
    | timedOut =>
        have hlate := hsound.1
        omega
  reachable t a ha hphase halone hearly hslot := by
    have hreach : w.Reachable t a := by
      have hsound := h.sound t a ha
      unfold Sound at hsound
      rcases hphase with hphase | ⟨deadline, hphase⟩
      · rw [hphase] at hsound
        exact hsound
      · rw [hphase] at hsound
        exact hsound.1
    rcases hreach hslot with ⟨cid, e, he, rfl⟩ | hheld | hcontested | hlate
    · obtain ⟨a', ha', hcid, hexpires, -⟩ := h.entry cid e he
      rw [ha] at ha'
      cases ha'
      refine Or.inl ?_
      rw [hcid, he, ← hexpires]
    · exact Or.inr hheld
    · exact absurd hcontested (halone.not_contested ha)
    · omega
  needed := h.entry

/-- Whatever the order of asks, replies and sweeps: an ask returns a reply that was meant for
it, gets one at most, and with a correlation id of its own it does not give up, and stays
within reach of its reply, until its instant. -/
theorem asks_answered (shardOf : String → Fin PendingAsks.shardAmount) (defaultTimeout : Nat)
    (actions : List AskAction) :
    (run (step shardOf) (start defaultTimeout) actions).Answered :=
  (run_good defaultTimeout actions).answered

end AskWorld

end PlexSpaces.Actors
