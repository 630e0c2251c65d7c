import Kne.CarrierModel

/-!
The carrier of one end follows the admin state of the other.

For each direction: an end that knows its admin state has told the other, or has something to do
about it, or is going to be asked for it. What a pusher has to do survives every step of its
goroutine and of those who call it (`Adv`), and a pusher with something to send is not left asleep.
-/

namespace Kne.CarrierSync

open Kne.Runs Kne.CarrierModel

variable {p q : Pusher} {x x' y y' : Side} {s s' : St} {a : Act}

/-! ### One pusher -/

structure Ok (p : Pusher) : Prop where
  sent : ∀ req applied, p.worker = .sending req applied →
    p.dirty = true ∨ req.peerAdminUp = p.adminUp
  awake : p.dirty = true → p.known = true →
    0 < p.kicks ∨ p.notify = true ∨ p.worker ≠ .waiting
  sync : p.requestSync = true → p.dirty = true

/-- The pusher is going to send its state, or has ended. -/
def Owes (p : Pusher) : Prop :=
  p.dirty = true ∨ p.owed ≠ [] ∨ (∃ req, p.worker = .sending req false) ∨ p.worker = .done

/-- The pusher is going to ask for the state of the peer, or has ended. -/
def Asks (p : Pusher) : Prop :=
  p.requestSync = true ∨ true ∈ p.owed ∨
    (∃ req, p.worker = .sending req false ∧ req.requestSync = true) ∨ p.worker = .done

/-- What `p` may become without a word to the peer. -/
structure Adv (p q : Pusher) : Prop where
  ok : Ok p → Ok q
  known : q.known = true → q.dirty = true ∨ p.known = true ∧ q.adminUp = p.adminUp
  owes : Owes p → Owes q
  asks : Ok p → Asks p → Asks q

lemma Adv.refl (p : Pusher) : Adv p p := ⟨id, fun h => .inr ⟨h, rfl⟩, id, fun _ => id⟩

lemma setAdmin_cases (p : Pusher) (up : Bool) :
    (p.known = true ∧ p.adminUp = up ∧ p.setAdmin up = p) ∨
      p.setAdmin up =
        { p with known := true, adminUp := up, dirty := true, kicks := p.kicks + 1 } := by
  by_cases h : p.known = true ∧ p.adminUp = up
  · obtain ⟨hk, rfl⟩ := h
    refine .inl ⟨hk, rfl, ?_⟩
    cases p
    simp_all [Pusher.setAdmin]
  · have hc : (!p.known || p.adminUp != up) = true := by
      cases hk : p.known <;> simp_all
    exact .inr (by simp [Pusher.setAdmin, hc])

lemma look_cases (p : Pusher) :
    (¬ (p.dirty = true ∧ p.known = true) ∧ p.look = { p with worker := .waiting }) ∨
      (p.dirty = true ∧ p.known = true ∧ p.ready = false ∧
        p.look = { p with worker := .backoff }) ∨
      (p.dirty = true ∧ p.known = true ∧ p.ready = true ∧
        p.look = { p with
          dirty := false
          requestSync := false
          worker := .sending ⟨p.adminUp, p.requestSync⟩ false }) := by
  unfold Pusher.look Pusher.next
  cases hd : p.dirty <;> cases hk : p.known <;> cases hr : p.ready <;> simp [hd, hk, hr]

lemma adv_setAdmin (p : Pusher) (up : Bool) : Adv p (p.setAdmin up) := by
  rcases setAdmin_cases p up with ⟨-, -, h⟩ | h
  · rw [h]
    exact .refl p
  · rw [h]
    exact ⟨fun _ => ⟨fun _ _ _ => .inl rfl, fun _ _ => .inl (Nat.succ_pos _), fun _ => rfl⟩,
      fun _ => .inl rfl, fun _ => .inl rfl, fun _ => id⟩

lemma adv_resend {rs : Bool} {owed : List Bool} (h : p.owed = rs :: owed) :
    Adv p { p.resend rs with owed := owed } := by
  refine ⟨fun _ => ⟨fun _ _ _ => .inl rfl, fun _ _ => .inl (Nat.succ_pos _), fun _ => rfl⟩,
    fun _ => .inl rfl, fun _ => .inl rfl, fun _ ha => ?_⟩
  rcases ha with ha | ha | ha
  · exact .inl (by simp [Pusher.resend, ha])
  · rw [h] at ha
    rcases List.mem_cons.mp ha with rfl | ha
    · exact .inl (by simp [Pusher.resend])
    · exact .inr (.inl ha)
  · exact .inr (.inr ha)

lemma adv_goto {w : Worker} {n : Bool} (hold : ∀ req, p.worker ≠ .sending req false)
    (hdone : p.worker ≠ .done) (hw : w = .looking ∨ w = .backoff) :
    Adv p { p with notify := n, worker := w } := by
  refine ⟨fun h => ⟨fun req b hs => ?_, fun _ _ => .inr (.inr ?_), h.sync⟩,
    fun hk => .inr ⟨hk, rfl⟩,
    fun ho => ?_, fun _ ha => ?_⟩
  · rcases hw with rfl | rfl <;> cases hs
  · rcases hw with rfl | rfl <;> simp
  · rcases ho with ho | ho | ⟨req, ho⟩ | ho
    · exact .inl ho
    · exact .inr (.inl ho)
    · exact absurd ho (hold req)
    · exact absurd ho hdone
  · rcases ha with ha | ha | ⟨req, ha, -⟩ | ha
    · exact .inl ha
    · exact .inr (.inl ha)
    · exact absurd ha (hold req)
    · exact absurd ha hdone

lemma adv_done (p : Pusher) : Adv p { p with worker := .done } :=
  ⟨fun h => ⟨nofun, fun _ _ => .inr (.inr (by simp)), h.sync⟩, fun hk => .inr ⟨hk, rfl⟩,
    fun _ => .inr (.inr (.inr rfl)), fun _ _ => .inr (.inr (.inr rfl))⟩

lemma adv_look (h : p.worker = .looking) : Adv p p.look := by
  rcases look_cases p with ⟨hn, hl⟩ | ⟨hd, hk, hr, hl⟩ | ⟨hd, hk, hr, hl⟩
  · rw [hl]
    refine ⟨fun ho => ⟨nofun, fun hd hk => absurd ⟨hd, hk⟩ hn, ho.sync⟩, fun hk => .inr ⟨hk, rfl⟩,
      fun ho => ?_, fun _ ha => ?_⟩
    · simpa [Owes, h] using ho
    · simpa [Asks, h] using ha
  · rw [hl]
    exact adv_goto (by simp [h]) (by simp [h]) (.inr rfl)
  · -- what was to be sent is now in the request
    rw [hl]
    refine ⟨fun ho => ⟨fun req b hw => ?_, nofun, nofun⟩, fun hk => .inr ⟨hk, rfl⟩,
      fun _ => .inr (.inr (.inl ⟨_, rfl⟩)), fun _ ha => ?_⟩
    · cases hw
      exact .inr rfl
    · rcases ha with ha | ha | ⟨req, hw, -⟩ | hw
      · exact .inr (.inr (.inl ⟨_, rfl, ha⟩))
      · exact .inr (.inl ha)
      · rw [h] at hw; cases hw
      · rw [h] at hw; cases hw

lemma adv_move {m : Move} (h : p.move m = some q) : Adv p q := by
  cases m with
  | setRead =>
    obtain ⟨up, -, rfl⟩ := Option.map_eq_some_iff.mp h
    obtain ⟨hok, hk, ho, ha⟩ := adv_setAdmin p up
    exact ⟨fun h => ⟨(hok h).sent, (hok h).awake, (hok h).sync⟩, hk, ho, ha⟩
  | resend =>
    simp only [Pusher.move] at h
    split at h
    · next ho =>
      obtain rfl := Option.some.inj h
      exact adv_resend ho
    · cases h
  | kick =>
    simp only [Pusher.move, Pusher.kick] at h
    split at h
    · obtain rfl := Option.some.inj h
      exact ⟨fun h => ⟨h.sent, fun _ _ => .inr (.inl rfl), h.sync⟩, fun hk => .inr ⟨hk, rfl⟩, id,
        fun _ => id⟩
    · cases h
  | wake =>
    simp only [Pusher.move] at h
    split at h
    · next hw =>
      obtain rfl := Option.some.inj h
      exact adv_goto (by simp [hw.1]) (by simp [hw.1]) (.inl rfl)
    · cases h
  | look =>
    simp only [Pusher.move] at h
    split at h
    · next hw =>
      obtain rfl := Option.some.inj h
      exact adv_look hw
    · cases h
  | acked =>
    simp only [Pusher.move] at h
    split at h
    · next hw =>
      obtain rfl := Option.some.inj h
      exact adv_goto (by simp [hw]) (by simp [hw]) (.inl rfl)
    · cases h
  | fail =>
    simp only [Pusher.move] at h
    split at h
    · next req applied hw =>
      obtain rfl := Option.some.inj h
      refine ⟨fun h => ⟨nofun, fun _ _ => .inr (.inr (by simp)), fun _ => rfl⟩, fun _ => .inl rfl,
        fun _ => .inl rfl, fun _ ha => ?_⟩
      rcases ha with ha | ha | ⟨req', hw', hs⟩ | hw'
      · exact .inl (by simp [Pusher.retry, ha])
      · exact .inr (.inl ha)
      · rw [hw] at hw'
        cases hw'
        exact .inl (by simp [Pusher.retry, hs])
      · rw [hw] at hw'; cases hw'
    · cases h
  | unimplemented =>
    simp only [Pusher.move] at h
    split at h
    · obtain rfl := Option.some.inj h
      exact adv_done p
    · cases h
  | elapse =>
    simp only [Pusher.move] at h
    split at h
    · next hw =>
      obtain rfl := Option.some.inj h
      exact adv_goto (by simp [hw]) (by simp [hw]) (.inl rfl)
    · cases h
  | leave =>
    simp only [Pusher.move] at h
    split at h
    · obtain rfl := Option.some.inj h
      exact adv_done p
    · cases h

/-! ### The two ends -/

lemma adv_owed (p : Pusher) : Adv p { p with owed := p.owed ++ [false] } := by
  refine ⟨fun h => ⟨h.sent, h.awake, h.sync⟩, fun hk => .inr ⟨hk, rfl⟩, fun _ => ?_, fun _ ha => ?_⟩
  · exact .inr (.inl (by simp))
  · simpa [Asks] using ha

lemma owes_owe (x : Side) : Owes x.owe.cur := by
  refine .inr (.inl ?_)
  simp [Side.owe, Side.modify, Side.cur]

lemma cur_modify (x : Side) (i : ℕ) (f : Pusher → Pusher) :
    (x.modify i f).cur = if i = x.gen then f x.cur else x.cur := by
  by_cases hi : i = x.gen
  · subst hi
    simp [Side.modify, Side.cur]
  · simp [Side.modify, Side.cur, hi, Ne.symm hi]

/-- The watch ends with the state of the interface, and the registered wire knows what the watch
has recorded. -/
structure SeenBy (x : Side) (w : Watch) : Prop where
  last : (w.adminUp.toList ++ w.updates).getLast? = some x.link
  bound : ∀ i ∈ w.wires, i ≤ x.gen
  told : x.gen ∈ w.wires → x.cur.read = none →
    ∀ v, w.adminUp = some v → x.cur.known = true ∧ x.cur.adminUp = v

def Seen (x : Side) : Prop := ∀ w ∈ x.watch, SeenBy x w

/-- The end `y` has the admin state of `x`, or one of the two has something to do about it. -/
def Heard (x y : Side) : Prop :=
  x.cur.known = true →
    y.carrier = x.cur.adminUp ∨ y.stray = true ∨ Owes x.cur ∨ Asks y.cur

structure Inv (s : St) : Prop where
  ok : ∀ e, Ok (s e).cur
  seen : ∀ e, Seen (s e)
  heard : ∀ e, Heard (s e) (s !e)

lemma Seen.congr (h : Seen x) (hw : x'.watch = x.watch) (hl : x'.link = x.link)
    (hg : x'.gen = x.gen) (hr : x'.cur.read = x.cur.read) (hk : x'.cur.known = x.cur.known)
    (ha : x'.cur.adminUp = x.cur.adminUp) : Seen x' := by
  intro w hmem
  rw [hw] at hmem
  obtain ⟨hlast, hbound, htold⟩ := h w hmem
  refine ⟨by rw [hl]; exact hlast, by rw [hg]; exact hbound, ?_⟩
  rw [hg, hr, hk, ha]
  exact htold

lemma Heard.adv (h : Heard x y) (hok : Ok y.cur) (hx : Adv x.cur x'.cur) (hy : Adv y.cur y'.cur)
    (hc : y'.carrier = y.carrier) (hs : y'.stray = y.stray) : Heard x' y' := by
  intro hk
  rcases hx.known hk with hd | ⟨hk, ha⟩
  · exact .inr (.inr (.inl (.inl hd)))
  · rw [hc, hs, ha]
    rcases h hk with h | h | h | h
    · exact .inl h
    · exact .inr (.inl h)
    · exact .inr (.inr (.inl (hx.owes h)))
    · exact .inr (.inr (.inr (hy.asks hok h)))

@[simp] lemma set_self (s : St) (e : Bool) (x : Side) : s.set e x e = x := by simp [St.set]

@[simp] lemma set_not (s : St) (e : Bool) (x : Side) : s.set e x (!e) = s !e := by
  simp [St.set]

@[simp] lemma set_of_not (s : St) (e : Bool) (x : Side) : s.set (!e) x e = s e := by
  simp [St.set]

lemma Inv.one {e : Bool} (h : Inv s) (hadv : Adv (s e).cur x'.cur)
    (hc : x'.carrier = (s e).carrier) (hs : x'.stray = (s e).stray) (hseen : Seen x') :
    Inv (s.set e x') where
  ok := (Bool.forall_bool' e).mpr ⟨by simpa using hadv.ok (h.ok e), by simpa using h.ok !e⟩
  seen := (Bool.forall_bool' e).mpr ⟨by simpa using hseen, by simpa using h.seen !e⟩
  heard := by
    refine (Bool.forall_bool' e).mpr ⟨?_, ?_⟩
    · simpa using (h.heard e).adv (h.ok _) hadv (.refl _) rfl rfl
    · have hheard : Heard (s !e) (s e) := by simpa using h.heard !e
      have hnew : Heard (s !e) x' := hheard.adv (h.ok _) (.refl _) hadv hc hs
      simpa using hnew

lemma Inv.two {e : Bool} (hx : Ok x.cur) (hy : Ok y.cur) (hsx : Seen x) (hsy : Seen y)
    (hxy : Heard x y) (hyx : Heard y x) : Inv ((s.set e x).set (!e) y) where
  ok := (Bool.forall_bool' e).mpr ⟨by simpa using hx, by simpa using hy⟩
  seen := (Bool.forall_bool' e).mpr ⟨by simpa using hsx, by simpa using hsy⟩
  heard := (Bool.forall_bool' e).mpr ⟨by simpa using hxy, by simpa using hyx⟩

lemma move_keeps {m : Move} (h : p.move m = some q) (hm : m ≠ .setRead) :
    q.read = p.read ∧ q.known = p.known ∧ q.adminUp = p.adminUp := by
  cases m with
  | setRead => exact absurd rfl hm
  | resend | acked | fail | unimplemented =>
    simp only [Pusher.move] at h
    split at h
    · cases h
      exact ⟨rfl, rfl, rfl⟩
    · cases h
  | kick | wake | elapse | leave =>
    simp only [Pusher.move] at h
    split at h
    · cases h
      exact ⟨rfl, rfl, rfl⟩
    · cases h
  | look =>
    simp only [Pusher.move] at h
    split at h
    · obtain rfl := Option.some.inj h
      rcases look_cases p with ⟨-, hl⟩ | ⟨-, -, -, hl⟩ | ⟨-, -, -, hl⟩ <;> simp [hl]
    · cases h

lemma Inv.move {e : Bool} {i : ℕ} {m : Move} (h : Inv s) (hok : InTime s (.move e i m))
    (hstep : step s (.move e i m) = some s') : Inv s' := by
  simp only [step] at hstep
  split at hstep
  · obtain ⟨q, hq, rfl⟩ := Option.map_eq_some_iff.mp hstep
    by_cases hi : i = (s e).gen
    · subst hi
      have hcur : ((s e).modify (s e).gen fun _ => q).cur = q := by simp [cur_modify]
      refine h.one (by rw [hcur]; exact adv_move hq) rfl rfl ?_
      by_cases hm : m = .setRead
      · -- the state that was read is still the last that the watch has recorded
        subst hm
        obtain ⟨up, hup, rfl⟩ := Option.map_eq_some_iff.mp hq
        intro w hw
        obtain ⟨hlast, hbound, -⟩ := h.seen e w hw
        refine ⟨hlast, hbound, fun hmem _ v hv => ?_⟩
        have hread : w.adminUp = some up := (hok rfl w hw hmem).trans hup
        obtain rfl : up = v := Option.some.inj (hread.symm.trans hv)
        rw [hcur]
        exact ⟨rfl, rfl⟩
      · obtain ⟨hr, hk, ha⟩ := move_keeps hq hm
        refine (h.seen e).congr rfl rfl rfl ?_ ?_ ?_ <;> rw [hcur]
        exacts [hr, hk, ha]
    · have hcur : ((s e).modify i fun _ => q).cur = (s e).cur := by simp [cur_modify, hi]
      refine h.one (by rw [hcur]; exact .refl _) rfl rfl ?_
      exact (h.seen e).congr rfl rfl rfl (by rw [hcur]) (by rw [hcur]) (by rw [hcur])
  · cases hstep

lemma cur_setWireCarrier (y : Side) (req : Req) (stray : Bool) :
    (y.setWireCarrier req stray).cur =
      if req.requestSync then { y.cur with owed := y.cur.owed ++ [false] } else y.cur := by
  unfold Side.setWireCarrier
  cases req.requestSync with
  | true => simp [Side.owe, Side.modify, Side.cur]
  | false => rfl

lemma adv_setWireCarrier (y : Side) (req : Req) (stray : Bool) :
    Adv y.cur (y.setWireCarrier req stray).cur := by
  rw [cur_setWireCarrier]
  split
  · exact adv_owed _
  · exact .refl _

lemma Seen.setWireCarrier (h : Seen y) (req : Req) (stray : Bool) :
    Seen (y.setWireCarrier req stray) := by
  have hcur := cur_setWireCarrier y req stray
  unfold Side.setWireCarrier at hcur ⊢
  cases hs : req.requestSync with
  | true =>
    refine h.congr rfl rfl rfl ?_ ?_ ?_ <;> simp [Side.owe, Side.modify, Side.cur]
  | false => exact h.congr rfl rfl rfl rfl rfl rfl

lemma Inv.strays {e : Bool} {i : ℕ} {f : Pusher → Pusher} {req : Req} (h : Inv s)
    (hcur : Adv (s e).cur ((s e).modify i f).cur) (hseen : Seen ((s e).modify i f)) :
    Inv ((s.set e ((s e).modify i f)).set (!e) ((s !e).setWireCarrier req true)) := by
  refine .two (hcur.ok (h.ok e)) ((adv_setWireCarrier _ req true).ok (h.ok _)) hseen
    ((h.seen _).setWireCarrier req true) (fun _ => .inr (.inl rfl)) ?_
  have := h.heard !e
  rw [Bool.not_not] at this
  exact this.adv (h.ok e) (adv_setWireCarrier _ req true) hcur rfl rfl

lemma Inv.apply {e : Bool} {i : ℕ} (h : Inv s) (hstep : step s (.apply e i) = some s') :
    Inv s' := by
  simp only [step] at hstep
  split at hstep
  · split at hstep
    · next req hw =>
      obtain rfl := Option.some.inj hstep
      by_cases hi : i = (s e).gen
      · subst hi
        have hw : (s e).cur.worker = .sending req false := hw
        have hcur : ((s e).modify (s e).gen fun p => { p with worker := .sending req true }).cur =
            { (s e).cur with worker := .sending req true } := by simp [cur_modify]
        have hok := h.ok e
        have hadv := adv_setWireCarrier (s !e) req (decide ((s e).gen ≠ (s e).gen))
        refine .two ?_ (hadv.ok (h.ok _)) ?_ ((h.seen _).setWireCarrier _ _) ?_ ?_
        · rw [hcur]
          refine ⟨fun req' b hs => ?_, fun _ _ => .inr (.inr (by simp)), hok.sync⟩
          cases hs
          exact hok.sent req false hw
        · exact (h.seen e).congr rfl rfl rfl (by rw [hcur]) (by rw [hcur]) (by rw [hcur])
        · -- the peer now has the state that was sent, which is the latest one if it is not dirty
          intro _
          rcases hok.sent req false hw with hd | ha
          · exact .inr (.inr (.inl (.inl (by rw [hcur]; exact hd))))
          · exact .inl (by rw [hcur]; exact ha)
        · -- if the peer was asked for its state, it is now going to send it
          intro hk
          by_cases hs : req.requestSync = true
          · exact .inr (.inr (.inl (.inr (.inl (by simp [cur_setWireCarrier, hs])))))
          · have hsame := cur_setWireCarrier (s !e) req (decide ((s e).gen ≠ (s e).gen))
            rw [if_neg hs] at hsame
            rw [hsame] at hk ⊢
            have := h.heard (!e) hk
            rw [Bool.not_not] at this
            rcases this with hc | hst | ho | ha
            · exact .inl hc
            · exact .inr (.inl hst)
            · exact .inr (.inr (.inl ho))
            · refine .inr (.inr (.inr ?_))
              rw [hcur]
              rcases ha with ha | ha | ⟨req', hw', hs'⟩ | hw'
              · exact .inl ha
              · exact .inr (.inl ha)
              · rw [hw] at hw'
                cases hw'
                exact absurd hs' hs
              · rw [hw] at hw'; cases hw'
      · have hcur (f : Pusher → Pusher) : ((s e).modify i f).cur = (s e).cur := by
          simp [cur_modify, hi]
        rw [decide_eq_true hi]
        refine h.strays (by rw [hcur]; exact .refl _) ?_
        exact (h.seen e).congr rfl rfl rfl (by rw [hcur]) (by rw [hcur]) (by rw [hcur])
    · cases hstep
  · cases hstep

lemma Inv.applyLate {e : Bool} {i : ℕ} {req : Req} (h : Inv s)
    (hstep : step s (.applyLate e i req) = some s') : Inv s' := by
  simp only [step] at hstep
  split at hstep
  · obtain rfl := Option.some.inj hstep
    have hcur := cur_modify (s e) i fun p => { p with late := p.late.erase req }
    refine h.strays ?_ ?_
    · rw [hcur]
      split
      · exact ⟨fun h => ⟨h.sent, h.awake, h.sync⟩, fun hk => .inr ⟨hk, rfl⟩, id, fun _ => id⟩
      · exact .refl _
    · refine (h.seen e).congr rfl rfl rfl ?_ ?_ ?_ <;> rw [hcur] <;> split <;> rfl
  · cases hstep

lemma Seen.setLink (h : Seen x) (up : Bool) : Seen (x.setLink up) := by
  intro w hw
  obtain ⟨v, hv, rfl⟩ := Option.map_eq_some_iff.mp hw
  obtain ⟨-, hbound, htold⟩ := h v hv
  exact ⟨by simp [Side.setLink], hbound, htold⟩

lemma unregister_eq (x : Side) (others : Bool) :
    ∃ w old, x.unregister others = { x with watch := w, old := old } := by
  unfold Side.unregister
  split
  · split
    · exact ⟨_, _, rfl⟩
    · exact ⟨_, _, rfl⟩
  · exact ⟨_, _, rfl⟩

lemma Seen.unregister (h : Seen x) (others : Bool) : Seen (x.unregister others) := by
  unfold Side.unregister
  split
  · next w hw =>
    obtain ⟨hlast, hbound, htold⟩ := h w hw
    split
    · exact nofun
    · intro v hv
      cases hv
      exact ⟨hlast, fun i hi => hbound i (List.mem_of_mem_erase hi),
        fun hi => htold (List.mem_of_mem_erase hi)⟩
  · exact h

lemma cur_stopCarrier (x : Side) (others : Bool) :
    (x.stopCarrier others).cur = { x.cur with stop := true } := by
  obtain ⟨w, old, hx⟩ := unregister_eq x others
  unfold Side.stopCarrier
  rw [hx, cur_modify]
  exact if_pos rfl

lemma stopCarrier_keeps (x : Side) (others : Bool) :
    (x.stopCarrier others).link = x.link ∧ (x.stopCarrier others).gen = x.gen ∧
      (x.stopCarrier others).carrier = x.carrier ∧ (x.stopCarrier others).stray = x.stray := by
  obtain ⟨w, old, hx⟩ := unregister_eq x others
  unfold Side.stopCarrier
  rw [hx]
  exact ⟨rfl, rfl, rfl, rfl⟩

lemma Seen.stopCarrier (h : Seen x) (others : Bool) : Seen (x.stopCarrier others) := by
  obtain ⟨w, old, hx⟩ := unregister_eq x others
  have hcur := cur_stopCarrier x others
  have hu : (x.unregister others).cur = x.cur := by
    rw [hx]
    rfl
  refine (h.unregister others).congr rfl rfl rfl ?_ ?_ ?_ <;> rw [hcur, hu]

lemma Inv.startCarrier {e requestSync ready others : Bool} (h : Inv s)
    (hstep : step s (.startCarrier e requestSync ready others) = some s') : Inv s' := by
  obtain rfl := Option.some.inj hstep
  have hcur : ((s e).startCarrier requestSync ready others).cur =
      { ready := ready, owed := [requestSync], toRegister := true } := by
    simp [Side.startCarrier, Side.cur]
  have hadv : Adv (s !e).cur (if requestSync then s !e else (s !e).owe).cur := by
    split
    · exact .refl _
    · unfold Side.owe
      rw [cur_modify, if_pos rfl]
      exact adv_owed _
  refine .two ?_ (hadv.ok (h.ok _)) ?_ ?_ ?_ ?_
  · rw [hcur]
    exact ⟨nofun, nofun, nofun⟩
  · intro w hw
    obtain ⟨hlast, hbound, -⟩ := (h.seen e).stopCarrier others w hw
    rw [(stopCarrier_keeps (s e) others).2.1] at hbound
    refine ⟨hlast, fun i hi => (hbound i hi).trans (Nat.le_succ _), fun hmem => ?_⟩
    exact absurd (hbound _ hmem) (Nat.not_succ_le_self _)
  · split
    · exact h.seen _
    · refine (h.seen !e).congr rfl rfl rfl ?_ ?_ ?_ <;> simp [Side.owe, cur_modify]
  · rw [Heard, hcur]
    nofun
  · -- the new TAP device has carrier: the peer is asked for its state, or it is told of the wire
    intro _
    cases requestSync with
    | true => exact .inr (.inr (.inr (.inr (.inl (by simp [hcur])))))
    | false => exact .inr (.inr (.inl (owes_owe _)))

lemma adv_registered (p : Pusher) (r : Option Bool) :
    Adv p { p with toRegister := false, read := r } :=
  ⟨fun h => ⟨h.sent, h.awake, h.sync⟩, fun hk => .inr ⟨hk, rfl⟩, id, fun _ => id⟩

@[simp] lemma cur_setWatch (x : Side) (w : Option Watch) : (x.setWatch w).cur = x.cur := rfl

lemma Inv.register {e : Bool} {i : ℕ} {ok : Bool} (h : Inv s)
    (hstep : step s (.register e i ok) = some s') : Inv s' := by
  simp only [step] at hstep
  split at hstep
  · next hi =>
    obtain rfl := Option.some.inj hstep
    unfold Side.register
    split
    · next w hw =>
      obtain ⟨hlast, hbound, htold⟩ := h.seen e w hw
      refine h.one ?_ rfl rfl ?_
      · rw [cur_setWatch, cur_modify]
        split
        · exact adv_registered _ _
        · exact .refl _
      · intro w' hw'
        cases hw'
        refine ⟨hlast, fun j hj => ?_, fun hmem => ?_⟩
        · rcases List.mem_cons.mp hj with rfl | hj
          · exact hi.1
          · exact hbound j hj
        · rw [cur_setWatch, cur_modify]
          split
          · intro hr v hv
            exact absurd (hr.symm.trans hv) (by simp)
          · next hne =>
            exact htold ((List.mem_cons.mp hmem).resolve_left fun h => hne h.symm)
    · refine h.one ?_ rfl rfl ?_
      · rw [cur_setWatch, cur_modify]
        split
        · exact adv_registered _ _
        · exact .refl _
      · intro w hw
        cases ok with
        | true =>
          cases hw
          refine ⟨rfl, fun j hj => ?_, fun _ _ v hv => by cases hv⟩
          rw [List.mem_singleton.mp hj]
          exact hi.1
        | false => cases hw
  · cases hstep

/-- What the watch in place has recorded when `onAdminChange` was called, by itself or by one that
was told to stop. -/
lemma Seen.onAdminChange (up : Bool) (h : ∀ w ∈ x.watch, (∀ i ∈ w.wires, i ≤ x.gen) ∧
    (up :: w.updates).getLast? = some x.link) : Seen (x.onAdminChange up) := by
  unfold Side.onAdminChange
  split
  · next w hw =>
    obtain ⟨hbound, hlast⟩ := h w hw
    intro v hv
    cases hv
    refine ⟨hlast, hbound, fun hmem _ v hv => ?_⟩
    cases hv
    have hcur : (if x.gen ∈ w.wires then x.cur.setAdmin up else x.cur) = x.cur.setAdmin up :=
      if_pos hmem
    change (if x.gen ∈ w.wires then x.cur.setAdmin up else x.cur).known = true ∧
      (if x.gen ∈ w.wires then x.cur.setAdmin up else x.cur).adminUp = up
    rw [hcur]
    exact ⟨rfl, rfl⟩
  · next hw =>
    intro v hv
    rw [hw] at hv
    cases hv

lemma adv_onAdminChange (x : Side) (up : Bool) : Adv x.cur (x.onAdminChange up).cur := by
  unfold Side.onAdminChange
  split
  · next w hw =>
    change Adv x.cur (if x.gen ∈ w.wires then x.cur.setAdmin up else x.cur)
    split
    · exact adv_setAdmin _ up
    · exact .refl _
  · exact .refl _

lemma onAdminChange_keeps (x : Side) (up : Bool) :
    (x.onAdminChange up).carrier = x.carrier ∧ (x.onAdminChange up).stray = x.stray := by
  unfold Side.onAdminChange
  split <;> exact ⟨rfl, rfl⟩

lemma Inv.report {e : Bool} (h : Inv s) (hstep : step s (.report e) = some s') : Inv s' := by
  simp only [step] at hstep
  split at hstep
  · next w hw =>
    split at hstep
    · next up rest hup =>
      obtain rfl := Option.some.inj hstep
      obtain ⟨hlast, hbound, -⟩ := h.seen e w hw
      have hadv := adv_onAdminChange ((s e).setWatch (some { w with updates := rest })) up
      obtain ⟨hc, hs⟩ := onAdminChange_keeps ((s e).setWatch (some { w with updates := rest })) up
      refine h.one hadv hc hs (Seen.onAdminChange up fun v hv => ?_)
      cases hv
      refine ⟨hbound, ?_⟩
      change (up :: rest).getLast? = some (s e).link
      rw [hup] at hlast
      simpa using hlast
    · cases hstep
  · cases hstep

/-- The report of a watch that was told to stop does no harm as long as the one in its place has
something to report, or if it is true. -/
lemma Inv.lateReport {e : Bool} {k : ℕ} (h : Inv s) (hok : InTime s (.lateReport e k))
    (hstep : step s (.lateReport e k) = some s') : Inv s' := by
  simp only [step] at hstep
  split at hstep
  · next up rest hold =>
    obtain rfl := Option.some.inj hstep
    have hadv := adv_onAdminChange { s e with old := (s e).old.set k rest } up
    obtain ⟨hc, hs⟩ := onAdminChange_keeps { s e with old := (s e).old.set k rest } up
    refine h.one hadv hc hs (Seen.onAdminChange up fun w hw => ?_)
    obtain ⟨hlast, hbound, -⟩ := h.seen e w hw
    refine ⟨hbound, ?_⟩
    change (up :: w.updates).getLast? = some (s e).link
    cases hu : w.updates with
    | nil =>
      have htrue := hok w hw hu
      rw [hold] at htrue
      exact htrue
    | cons u us =>
      rw [hu] at hlast
      rw [List.getLast?_cons_cons]
      rwa [List.getLast?_append_of_ne_nil _ (by simp)] at hlast
  · cases hstep

lemma Inv.updateWire {e : Bool} (h : Inv s) (hstep : step s (.updateWire e) = some s') :
    Inv s' := by
  obtain rfl := Option.some.inj hstep
  have hcur : ((s e).owe.modify (s e).gen fun p => { p with ready := true }).cur =
      { (s e).cur with owed := (s e).cur.owed ++ [false], ready := true } := by
    simp [Side.owe, Side.modify, Side.cur]
  refine h.one ?_ rfl rfl ?_
  · rw [hcur]
    obtain ⟨hok, hk, ho, ha⟩ := adv_owed (s e).cur
    exact ⟨fun h => ⟨(hok h).sent, (hok h).awake, (hok h).sync⟩, hk, ho, ha⟩
  · exact (h.seen e).congr rfl rfl rfl (by rw [hcur]) (by rw [hcur]) (by rw [hcur])

lemma Inv.stopCarrier {e others : Bool} (h : Inv s)
    (hstep : step s (.stopCarrier e others) = some s') : Inv s' := by
  obtain rfl := Option.some.inj hstep
  obtain ⟨-, -, hc, hs⟩ := stopCarrier_keeps (s e) others
  refine h.one ?_ hc hs fun w hw => ?_
  · change Adv (s e).cur ((s e).stopCarrier others).cur
    rw [cur_stopCarrier]
    exact ⟨fun h => ⟨h.sent, h.awake, h.sync⟩, fun hk => .inr ⟨hk, rfl⟩, id, fun _ => id⟩
  · obtain ⟨hlast, hbound, htold⟩ := (h.seen e).stopCarrier others w hw
    exact ⟨hlast, hbound, htold⟩

lemma inv_step (h : Inv s) (hok : InTime s a) (hstep : step s a = some s') : Inv s' := by
  cases a with
  | move e i m => exact h.move hok hstep
  | apply e i => exact h.apply hstep
  | applyLate e i req => exact h.applyLate hstep
  | setLink e up =>
    obtain rfl := Option.some.inj hstep
    exact h.one (.refl _) rfl rfl ((h.seen e).setLink up)
  | startCarrier e requestSync ready others => exact h.startCarrier hstep
  | register e i ok => exact h.register hstep
  | report e => exact h.report hstep
  | lateReport e k => exact h.lateReport hok hstep
  | endWatch e k =>
    simp only [step] at hstep
    split at hstep
    · obtain rfl := Option.some.inj hstep
      exact h.one (.refl _) rfl rfl ((h.seen e).congr rfl rfl rfl rfl rfl rfl)
    · cases hstep
  | updateWire e => exact h.updateWire hstep
  | stopCarrier e others => exact h.stopCarrier hstep

lemma inv_init : Inv init where
  ok _ := ⟨nofun, nofun, nofun⟩
  seen _ := nofun
  heard _ := nofun

/-- The end `e` sends what it has to, if the call does not fail, and goes to sleep. -/
def sends (e : Bool) (i : ℕ) : List Act :=
  [.move e i .kick, .move e i .wake, .move e i .look, .apply e i, .move e i .acked, .move e i .look]

/-- The two ends of a wire are made, one with its interface up, and exchange their states. -/
def exchange : List Act :=
  [.setLink false true, .startCarrier false false false false, .register false 1 true,
    .report false, .move false 1 .resend, .move false 1 .kick, .startCarrier true false true false,
    .register true 1 true, .report true, .move true 1 .resend, .move true 1 .kick,
    .updateWire false, .move false 1 .resend, .move false 1 .resend, .move false 1 .kick,
    .move false 1 .kick] ++ sends false 1 ++ sends true 1

/-- The interface goes down; the call about it is given up, and executed when the peer has already
been told that the interface is up again. -/
def overtaken : List Act :=
  exchange ++ [.setLink false false, .report false, .move false 1 .kick, .move false 1 .wake,
    .move false 1 .look, .move false 1 .fail, .setLink false true, .report false,
    .move false 1 .elapse, .move false 1 .look, .apply false 1, .move false 1 .acked,
    .move false 1 .look, .move false 1 .kick, .move false 1 .wake, .move false 1 .look,
    .applyLate false 1 ⟨false, false⟩]

/-- A request that was given up may leave the peer with an old state. -/
theorem late_overwrites : ∃ s, run step init overtaken = some s ∧ (∀ e, Rest (s e)) ∧
    (s false).link = true ∧ (s true).carrier = false := by
  have hend : (run step init overtaken).any fun s => (Rest (s false) ∧ Rest (s true)) ∧
      (s false).link = true ∧ (s true).carrier = false := by decide
  obtain ⟨s, hrun, hs⟩ := (Option.any_eq_true _ _).mp hend
  obtain ⟨⟨hf, ht⟩, hl, hc⟩ := of_decide_eq_true hs
  exact ⟨s, hrun, Bool.forall_bool.mpr ⟨hf, ht⟩, hl, hc⟩

/-- The wire is made again and reads that its interface is up; the watch reports that it is down
before the wire sets what it has read. -/
def raced : List Act :=
  exchange ++ [.startCarrier false false true true, .register false 2 true, .setLink false false,
    .report false, .move false 2 .setRead, .move false 2 .resend, .move false 2 .kick,
    .move false 2 .kick] ++ sends false 2 ++
    [.move true 1 .resend] ++ sends true 1

/-- The state that `register` has read may replace a newer one. -/
theorem read_overwrites : ∃ s, run step init raced = some s ∧ (∀ e, Rest (s e)) ∧
    (s false).link = false ∧ (s true).carrier = true ∧ (s true).stray = false := by
  have hend : (run step init raced).any fun s => (Rest (s false) ∧ Rest (s true)) ∧
      (s false).link = false ∧ (s true).carrier = true ∧ (s true).stray = false := by decide
  obtain ⟨s, hrun, hs⟩ := (Option.any_eq_true _ _).mp hend
  obtain ⟨⟨hf, ht⟩, hl, hc, hst⟩ := of_decide_eq_true hs
  exact ⟨s, hrun, Bool.forall_bool.mpr ⟨hf, ht⟩, hl, hc, hst⟩

/-- The wire is made again and so is its watch, which reports that the interface is up again before
the one that was told to stop reports that it was down. -/
def outlived : List Act :=
  exchange ++ [.setLink false false, .startCarrier false false true false, .setLink false true,
    .register false 2 true, .report false, .lateReport false 0, .move false 2 .resend,
    .move false 2 .kick, .move false 2 .kick] ++ sends false 2 ++ [.move true 1 .resend] ++
    sends true 1

/-- The report of a watch that was told to stop may replace a newer one. -/
theorem lateReport_overwrites : ∃ s, run step init outlived = some s ∧ (∀ e, Rest (s e)) ∧
    (s false).link = true ∧ (s true).carrier = false ∧ (s true).stray = false := by
  have hend : (run step init outlived).any fun s => (Rest (s false) ∧ Rest (s true)) ∧
      (s false).link = true ∧ (s true).carrier = false ∧ (s true).stray = false := by decide
  obtain ⟨s, hrun, hs⟩ := (Option.any_eq_true _ _).mp hend
  obtain ⟨⟨hf, ht⟩, hl, hc, hst⟩ := of_decide_eq_true hs
  exact ⟨s, hrun, Bool.forall_bool.mpr ⟨hf, ht⟩, hl, hc, hst⟩

end Kne.CarrierSync
