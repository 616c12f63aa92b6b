import Modbus.Proofs.Connection.Shifts

/-!
# The line for the link

The holder of the link and those who wait for it stand in one line (`LinkLock.line`): who asks goes
to its end, who is done leaves it, and who stands first has the link.  `InLine` says that the line
is in order: everyone who wants the link stands in it once, nobody else does, and an exchange is only
ever in progress while the worker stands first.  Every shift keeps that (`InLine.of_shift`), whatever
the link does.
-/

namespace Modbus

namespace LinkLock

variable {lock : LinkLock} {asker : Holder}

/-- Who has the link, and who waits for it. -/
def line (lock : LinkLock) : List Holder :=
  lock.holder.toList ++ lock.waiting

/-- Nobody waits for a link that nobody has. -/
def Sound (lock : LinkLock) : Prop :=
  lock.holder = none → lock.waiting = []

lemma line_request (hsound : lock.Sound) (asker : Holder) :
    (lock.request asker).line = lock.line ++ [asker] := by
  cases hholder : lock.holder with
  | none => simp [request, line, hholder, hsound hholder]
  | some holder => simp [request, line, hholder]

lemma sound_request (asker : Holder) : (lock.request asker).Sound := by
  cases hholder : lock.holder <;> simp [request, Sound, hholder]

lemma sound_release (lock : LinkLock) : lock.release.Sound := by
  cases hwaiting : lock.waiting <;> simp [release, Sound, hwaiting]

lemma line_release (lock : LinkLock) : lock.release.line = lock.waiting := by
  cases hwaiting : lock.waiting <;> simp [release, line, hwaiting]

/-- Handing the link on is leaving the line. -/
lemma line_release_of_held (hnodup : lock.line.Nodup) (hheld : lock.isHeldBy asker = true) :
    lock.release.line = lock.line.filter (· != asker) := by
  have hline : lock.line = asker :: lock.waiting := by
    rw [line, beq_iff_eq.mp hheld]
    rfl
  rw [hline, List.nodup_cons] at hnodup
  have hothers : lock.waiting.filter (· != asker) = lock.waiting :=
    List.filter_eq_self.mpr fun other hother =>
      bne_iff_ne.mpr fun hsame => hnodup.1 (hsame ▸ hother)
  rw [line_release, hline, List.filter_cons_of_neg (by simp), hothers]

lemma line_withdraw (hnodup : lock.line.Nodup) (asker : Holder) :
    (lock.withdraw asker).line = lock.line.filter (· != asker) := by
  rw [withdraw]
  split_ifs with hheld
  · exact line_release_of_held hnodup hheld
  · have hholder : lock.holder.toList.filter (· != asker) = lock.holder.toList := by
      refine List.filter_eq_self.mpr fun other hother => bne_iff_ne.mpr fun hsame => hheld ?_
      rw [Option.mem_toList, hsame] at hother
      exact beq_iff_eq.mpr hother
    rw [line, line, List.filter_append, hholder]

lemma sound_withdraw (hsound : lock.Sound) (asker : Holder) : (lock.withdraw asker).Sound := by
  rw [withdraw]
  split_ifs
  · exact sound_release lock
  · intro hholder
    simp [hsound hholder]

/-- With someone in the line, someone has the link. -/
lemma exists_holder (hsound : lock.Sound) (hin : asker ∈ lock.line) :
    ∃ holder, lock.holder = some holder := by
  cases hholder : lock.holder with
  | none => simp [line, hholder, hsound hholder] at hin
  | some holder => exact ⟨holder, rfl⟩

lemma mem_line_of_holder {holder : Holder} (hholder : lock.holder = some holder) :
    holder ∈ lock.line := by
  simp [line, hholder]

end LinkLock

/-- The worker stands in the line for the link. -/
def Stage.isInLine : Stage → Bool
  | .awaitingLink _ => true
  | stage => stage.exchanging?.isSome

namespace Connection

variable {σ α : Type}

/-- Who has the link or waits for it, by what each task does. -/
def Custody.Wants (c : Custody) : Holder → Prop
  | .worker => c.stage.isInLine = true
  | .idleTimer => ∃ deadline, c.timer = .awaitingLink deadline
  | .disposal => c.disposal = .awaitingLink

/-- **The line is in order.** -/
structure InLine (c : Custody) : Prop where
  sound : c.link.Sound
  nodup : c.link.line.Nodup
  wants : ∀ asker, asker ∈ c.link.line ↔ c.Wants asker
  /-- Who exchanges has the link. -/
  holds : c.stage.exchanging?.isSome = true → c.link.holder = some .worker

lemma isInLine_of_exchanging {stage : Stage} (h : stage.exchanging?.isSome = true) :
    stage.isInLine = true := by
  cases stage <;> first | rfl | exact h

lemma isInLine_of_away {stage : Stage} (h : stage.isAway = true) : stage.isInLine = false := by
  cases stage <;> first | rfl | simp [Stage.isAway] at h

lemma exchanging_of_not_inLine {stage : Stage} (h : stage.isInLine = false) :
    stage.exchanging?.isSome = false := by
  cases hexchanging : stage.exchanging?.isSome with
  | false => rfl
  | true => simp [isInLine_of_exchanging hexchanging] at h

/-- An attempt is part of an exchange. -/
lemma Attempted.exchanging {item : Queued} {c c' : Custody} (h : Attempted item c c') :
    c'.stage.exchanging? = some item := by
  cases h <;> rfl

/-- Whoever waits for the link goes on waiting during an attempt. -/
lemma Attempted.tasks {item : Queued} {c c' : Custody} (h : Attempted item c c') :
    c'.link = c.link ∧ c'.timer = c.timer ∧ c'.disposal = c.disposal := by
  cases h <;> exact ⟨rfl, rfl, rfl⟩

namespace InLine

variable {c c' : Custody}

/-- The line stays as it is. -/
lemma stay (h : InLine c) (hlink : c'.link = c.link)
    (hwants : ∀ asker, c'.Wants asker ↔ c.Wants asker)
    (hstage : c'.stage.exchanging?.isSome = true → c.stage.exchanging?.isSome = true) :
    InLine c' where
  sound := hlink ▸ h.sound
  nodup := hlink ▸ h.nodup
  wants asker := by rw [hlink, hwants, h.wants]
  holds hexchanging := by rw [hlink, h.holds (hstage hexchanging)]

/-- The worker goes on with its exchange. -/
lemma onward (h : InLine c)
    (htasks : c'.link = c.link ∧ c'.timer = c.timer ∧ c'.disposal = c.disposal)
    (hbefore : c.stage.exchanging?.isSome = true) (hafter : c'.stage.exchanging?.isSome = true) :
    InLine c' := by
  obtain ⟨hlink, htimer, hdisposal⟩ := htasks
  refine h.stay hlink (fun asker => ?_) fun _ => hbefore
  cases asker with
  | worker => simp [Custody.Wants, isInLine_of_exchanging hbefore, isInLine_of_exchanging hafter]
  | idleTimer => simp [Custody.Wants, htimer]
  | disposal => simp [Custody.Wants, hdisposal]

/-- The worker goes about its other business. -/
lemma elsewhere (h : InLine c)
    (htasks : c'.link = c.link ∧ c'.timer = c.timer ∧ c'.disposal = c.disposal)
    (hbefore : c.stage.isInLine = false) (hafter : c'.stage.isInLine = false) : InLine c' := by
  obtain ⟨hlink, htimer, hdisposal⟩ := htasks
  refine h.stay hlink (fun asker => ?_) fun hexchanging => ?_
  · cases asker with
    | worker => simp [Custody.Wants, hbefore, hafter]
    | idleTimer => simp [Custody.Wants, htimer]
    | disposal => simp [Custody.Wants, hdisposal]
  · simp [exchanging_of_not_inLine hafter] at hexchanging

/-- Someone joins the line. -/
lemma join (h : InLine c) {newcomer : Holder} (hlink : c'.link = c.link.request newcomer)
    (hnew : ¬ c.Wants newcomer)
    (hwants : ∀ asker, c'.Wants asker ↔ c.Wants asker ∨ asker = newcomer)
    (hholds : c'.stage.exchanging?.isSome = true → c'.link.holder = some .worker) :
    InLine c' where
  sound := hlink ▸ LinkLock.sound_request newcomer
  nodup := by
    rw [hlink, LinkLock.line_request h.sound, List.nodup_append]
    refine ⟨h.nodup, by simp, fun asker hasker other hother => ?_⟩
    rw [List.mem_singleton.mp hother]
    exact fun hsame => hnew ((h.wants newcomer).mp (hsame ▸ hasker))
  wants asker := by
    rw [hlink, LinkLock.line_request h.sound, List.mem_append, List.mem_singleton, h.wants, hwants]
  holds := hholds

/-- Someone leaves the line, and no exchange is in progress then. -/
lemma leave (h : InLine c) {leaver : Holder} (hsound : c'.link.Sound)
    (hline : c'.link.line = c.link.line.filter (· != leaver))
    (hwants : ∀ asker, c'.Wants asker ↔ c.Wants asker ∧ asker ≠ leaver)
    (hidle : c'.stage.exchanging?.isSome = false) : InLine c' where
  sound := hsound
  nodup := hline ▸ h.nodup.filter _
  wants asker := by rw [hline, List.mem_filter, bne_iff_ne, h.wants, hwants]
  holds hexchanging := by simp [hidle] at hexchanging

/-- The worker hands the link on. -/
lemma handOn (h : InLine c) {item : Queued} {result : Result Bytes}
    (hlink : c'.link = c.link.release)
    (htasks : c'.timer = c.timer ∧ c'.disposal = c.disposal)
    (hbefore : c.stage = .concluding item result) (hafter : c'.stage = .delivering item result) :
    InLine c' := by
  have hheld : c.link.isHeldBy .worker = true :=
    beq_iff_eq.mpr (h.holds (by simp [hbefore, Stage.exchanging?]))
  refine h.leave (hlink ▸ LinkLock.sound_release _)
    (hlink ▸ LinkLock.line_release_of_held h.nodup hheld) (fun asker => ?_)
    (by simp [hafter, Stage.exchanging?])
  cases asker with
  | worker => simp [Custody.Wants, hafter, Stage.isInLine, Stage.exchanging?]
  | idleTimer => simp [Custody.Wants, htasks.1]
  | disposal => simp [Custody.Wants, htasks.2]

/-- While another task has the link no exchange is in progress. -/
lemma idle (h : InLine c) {asker : Holder} (hheld : c.link.isHeldBy asker = true)
    (hother : asker ≠ .worker) : c.stage.exchanging?.isSome = false := by
  cases hexchanging : c.stage.exchanging?.isSome with
  | false => rfl
  | true =>
      have hworker := h.holds hexchanging
      rw [beq_iff_eq.mp hheld, Option.some.injEq] at hworker
      exact absurd hworker hother

/-- **Every shift keeps the line in order.** -/
lemma of_shift (h : InLine c) (hshift : Shift c c') : InLine c' := by
  cases hshift with
  | rest => exact h
  | away hbefore hafter hstopped =>
      refine h.elsewhere ⟨rfl, rfl, rfl⟩ (isInLine_of_away hbefore) ?_
      rcases hafter with hafter | ⟨item, error, rfl⟩
      · exact isInLine_of_away hafter
      · rfl
  | request hstage =>
      by_cases hheld : (c.link.request .worker).isHeldBy .worker = true
      · refine h.join rfl (by simp [Custody.Wants, hstage, Stage.isInLine, Stage.exchanging?])
          (fun asker => ?_) fun _ => beq_iff_eq.mp hheld
        cases asker <;> simp [Custody.Wants, hheld, Stage.isInLine, Stage.exchanging?]
      · refine h.join rfl (by simp [Custody.Wants, hstage, Stage.isInLine, Stage.exchanging?])
          (fun asker => ?_) fun hexchanging => ?_
        · cases asker <;> simp [Custody.Wants, hheld, Stage.isInLine]
        · simp [hheld, Stage.exchanging?] at hexchanging
  | withdraw hstage =>
      refine h.leave (LinkLock.sound_withdraw h.sound .worker)
        (LinkLock.line_withdraw h.nodup .worker) (fun asker => ?_) rfl
      cases asker <;> simp [Custody.Wants, Stage.isInLine, Stage.exchanging?]
  | granted hstage hheld =>
      refine ⟨h.sound, h.nodup, fun asker => ?_, fun _ => beq_iff_eq.mp hheld⟩
      rw [h.wants]
      cases asker <;> simp [Custody.Wants, hstage, Stage.isInLine, Stage.exchanging?]
  | use hstage hopen => exact h.onward ⟨rfl, rfl, rfl⟩ (by simp [hstage, Stage.exchanging?]) rfl
  | reconnect hstage hclosed =>
      exact h.onward ⟨rfl, rfl, rfl⟩ (by simp [hstage, Stage.exchanging?]) rfl
  | attempt hstage hattempted =>
      exact h.onward hattempted.tasks (by simp [hstage, Stage.exchanging?])
        (by simp [hattempted.exchanging])
  | opening hstage hattempted =>
      exact h.onward hattempted.tasks (by simp [hstage, Stage.exchanging?])
        (by simp [hattempted.exchanging])
  | again hstage => exact h.onward ⟨rfl, rfl, rfl⟩ (by simp [hstage, Stage.exchanging?]) rfl
  | fail hexchanging hpending herror hevents =>
      exact h.onward ⟨rfl, rfl, rfl⟩ (by simp [hexchanging]) rfl
  | send hstage hopen => exact h.onward ⟨rfl, rfl, rfl⟩ (by simp [hstage, Stage.exchanging?]) rfl
  | read hstage hlater hevents =>
      refine h.onward ⟨rfl, rfl, rfl⟩ ?_ ?_
      · rcases hstage with hstage | ⟨expiresAt, hstage⟩ <;> simp [hstage, Stage.exchanging?]
      · rcases hlater with ⟨received, rfl⟩ | ⟨received, expiresAt, rfl⟩ <;> rfl
  | complete hstage hopen =>
      exact h.onward ⟨rfl, rfl, rfl⟩ (by simp [hstage, Stage.exchanging?]) rfl
  | keep hstage => exact h.handOn rfl ⟨rfl, rfl⟩ hstage rfl
  | drop hstage herror => exact h.handOn rfl ⟨rfl, rfl⟩ hstage rfl
  | spare hstage herror => exact h.handOn rfl ⟨rfl, rfl⟩ hstage rfl
  | deliver hstage hlater =>
      refine h.elsewhere ⟨rfl, rfl, rfl⟩ (by simp [hstage, Stage.isInLine, Stage.exchanging?]) ?_
      rcases hlater with rfl | ⟨until_, rfl⟩ <;> rfl
  | look hwaits htimer =>
      refine h.stay rfl (fun asker => ?_) fun hexchanging => hexchanging
      cases asker <;> simp [Custody.Wants, htimer]
  | relieve hwaits htimer hshutdown =>
      refine h.stay rfl (fun asker => ?_) fun hexchanging => hexchanging
      cases asker <;> simp [Custody.Wants, htimer]
  | wake hwaits htimer hwoken =>
      refine h.stay rfl (fun asker => ?_) fun hexchanging => hexchanging
      cases asker <;> simp [Custody.Wants, htimer]
  | expire hwaits htimer hdue =>
      refine h.join rfl (by simp [Custody.Wants, htimer]) (fun asker => ?_) fun hexchanging => ?_
      · cases asker <;> simp [Custody.Wants]
      · simp [LinkLock.request, h.holds hexchanging]
  | @spend deadline hwaits htimer hheld =>
      obtain ⟨_, _, _, _, hspent⟩ := c.exists_spend_eq deadline
      rw [hspent]
      refine h.leave (LinkLock.sound_release _)
        (LinkLock.line_release_of_held h.nodup hheld) (fun asker => ?_)
        (h.idle hheld (by decide))
      cases asker <;> simp [Custody.Wants]
  | dispose hwaits hdisposal =>
      refine h.stay rfl (fun asker => ?_) fun hexchanging => hexchanging
      cases asker <;> simp [Custody.Wants, hdisposal]
  | joinWorker hdisposal hstage =>
      refine h.stay rfl (fun asker => ?_) fun hexchanging => hexchanging
      cases asker <;> simp [Custody.Wants, hdisposal]
  | joinTimer hwaits hdisposal htimer =>
      refine h.join rfl (by simp [Custody.Wants, hdisposal]) (fun asker => ?_) fun hexchanging => ?_
      · cases asker <;> simp [Custody.Wants]
      · simp [LinkLock.request, h.holds hexchanging]
  | unlink hwaits hdisposal hheld =>
      refine h.leave (LinkLock.sound_release _)
        (LinkLock.line_release_of_held h.nodup hheld) (fun asker => ?_)
        (h.idle hheld (by decide))
      cases asker <;> simp [Custody.Wants, Custody.close, Custody.reset, Custody.notes]
  | aside hwaits haside => exact ⟨h.sound, h.nodup, h.wants, h.holds⟩
  | tick hwaits hlater => exact ⟨h.sound, h.nodup, h.wants, h.holds⟩

/-- The line does not depend on whether the link is up. -/
lemma lose (h : InLine c) : InLine { c with connected := false } :=
  ⟨h.sound, h.nodup, h.wants, h.holds⟩

/-- **The line is in order after every run** of a new connection, over any link. -/
lemma of_run [Peer σ] (name : String) (timing : Timing) (framing : Framing) (wire : Wire σ)
    (happenings : List (Happening α)) :
    InLine ((create name timing framing wire).runOver happenings).custody := by
  refine custody_induction (fun _ _ h hshift => h.of_shift hshift) happenings _
    (fun _ _ h => h.lose) ⟨fun _ => rfl, by simp [custody, create, LinkLock.line], ?_, ?_⟩
  · intro asker
    cases asker <;>
      simp [custody, create, LinkLock.line, Custody.Wants, Stage.isInLine, Stage.exchanging?]
  · simp [custody, create, Stage.exchanging?]

end InLine

end Connection

end Modbus
