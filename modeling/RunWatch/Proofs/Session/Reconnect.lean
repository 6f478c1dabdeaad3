import Mathlib.Algebra.Group.Nat.Defs
import RunWatch.Proofs.Session.Channel
namespace RunWatch.Session

def Transition.Dials (t : Transition) (attempt : UInt32) : Prop :=
  ∃ status, t.published = [status] ∧ status.state = .connecting ∧ status.reconnectAttempt = attempt

def channelSteps (ts : List Transition) : List Transition := ts.filter fun t => t.step.ofChannel

inductive Up : List Transition → Prop where
  | made (made : c.step = .connected m) (told : d.step = .tell n) : Up [c,d]
  | frame (up : Up log) (came : t.step = .frame f m) (goes : f ≠ .close) : Up (log ++ [t])

inductive Ended (attempt : UInt32) : List Transition → Next → Prop where
  | refused (refused : t.step = .connectFailed fault m)
      (counted : next.toNat = min (attempt.toNat + 1) 4294967295) : Ended attempt [t] (.waiting next)
  | lost (up : Up log) (loses : t.step.Loses reason follow) : Ended attempt (log ++ [t]) follow

structure Delay (attempt : UInt32) (delay : Nat) : Prop where
  spread : ∃ jitter < 250, 200 * 2 ^ min attempt.toNat 6 + jitter < UInt64.size ∧
    delay = min (200 * 2 ^ min attempt.toNat 6 + jitter) 5000
  least : 400 ≤ delay
  most : delay ≤ 5000
  settled : 5 ≤ attempt.toNat → delay = 5000

inductive Waits (attempt : UInt32) (told retry : Transition) : Prop where
  | waits (tells : told.step = .tell now) (delay : Delay attempt span)
      (begins : told.after.phase = .waiting attempt (now.clock + span))
      (ends : ∀ m, (retry.before.advance (.retry m)).isSome = true ↔ now.clock + span ≤ m.clock)
      (retries : retry.step = .retry back) (due : now.clock + span ≤ back.clock) : Waits attempt told retry

-- All that the channel task does between two dials. Only after a close frame it does not
-- wait, but can go on at once.
inductive Round (attempt : UInt32) : List Transition → UInt32 → Prop where
  | waited (ended : Ended attempt log (.waiting next)) (waits : Waits next told retry)
      (opens : opening.step = .openChannel m) : Round attempt (log ++ [told,retry,opening]) next
  | hurried (ended : Ended attempt log .opening) (tells : told.step = .tell now)
      (free : ∀ m, (told.after.advance (.openChannel m)).isSome = true) (opens : opening.step = .openChannel m) :
      Round attempt (log ++ [told,opening]) 0

theorem nextAttempt_toNat (attempt : UInt32) :
    (nextAttempt attempt).toNat = min (attempt.toNat + 1) 4294967295 := by
  unfold nextAttempt
  split
  · rename_i last
    rw [last]
    rfl
  · rename_i more
    have bound : attempt.toNat < 4294967296 := attempt.toNat_lt
    have unequal : attempt.toNat ≠ 4294967295 := fun same => more (UInt32.toNat_inj.mp same)
    rw [UInt32.toNat_add]
    simp only [UInt32.reduceToNat]
    omega

theorem Step.Loses.counts (loses : Step.Loses step reason follow) (waits : follow = .waiting next) : next = 1 := by
  cases loses <;> cases waits <;> rfl

theorem Ended.positive (ended : Ended attempt log (.waiting next)) : 1 ≤ next.toNat := by
  cases ended with
  | refused refused counted => omega
  | lost up loses =>
    rw [loses.counts rfl]
    decide

-- From the fifth attempt on the wait doubled is longer than the limit.
theorem reconnectDelay_delay (positive : 1 ≤ attempt.toNat) (wall : Int64) :
    Delay attempt (reconnectDelay attempt wall) := by
  have jitter : wall.toInt.natAbs % 250 < 250 := Nat.mod_lt _ (by decide)
  have delay : reconnectDelay attempt wall =
      min (200 * 2 ^ min attempt.toNat 6 + wall.toInt.natAbs % 250) 5000 := by
    rw [reconnectDelay,Nat.one_shiftLeft]
    rfl
  have doubled : 2 ^ 1 ≤ 2 ^ min attempt.toNat 6 := Nat.pow_le_pow_right (by decide) (by omega)
  have bounded : 2 ^ min attempt.toNat 6 ≤ 2 ^ 6 := Nat.pow_le_pow_right (by decide) (by omega)
  have size : UInt64.size = 18446744073709551616 := rfl
  refine ⟨⟨_,jitter,by omega,delay⟩,by omega,by omega,fun settled => ?_⟩
  have settled : 2 ^ 5 ≤ 2 ^ min attempt.toNat 6 := Nat.pow_le_pow_right (by decide) (by omega)
  omega

def Phase.isLeaving : Phase → Bool
  | .telling a _ => a.state = .stopped
  | .closing | .quiet | .stopped => true
  | _ => false

-- Where the channel task is, by what it did since it dialled.
inductive Underway (attempt : UInt32) : List Transition → Phase → Prop where
  | dialled : Underway attempt [] (.connecting attempt)
  | made (made : c.step = .connected m) (connected : a.state = .connected) :
      Underway attempt [c] (.telling a .reading)
  | up (up : Up log) : Underway attempt log .reading
  | failed (ended : Ended attempt log follow) (disconnected : a.state = .disconnected) :
      Underway attempt log (.telling a follow)
  | waiting (ended : Ended attempt log (.waiting next)) (tells : told.step = .tell now)
      (delay : Delay next span) (begins : told.after.phase = .waiting next (now.clock + span)) :
      Underway attempt (log ++ [told]) (.waiting next (now.clock + span))
  | retried (ended : Ended attempt log (.waiting next)) (waits : Waits next told retry) :
      Underway attempt (log ++ [told,retry]) (.opening next)
  | hurried (ended : Ended attempt log .opening) (tells : told.step = .tell now)
      (free : ∀ m, (told.after.advance (.openChannel m)).isSome = true) :
      Underway attempt (log ++ [told]) (.opening 0)
  | opened (round : Round attempt log next) :
      Underway attempt log (.telling ⟨.connecting,next,reason⟩ (.connecting next))
  | leaving (leaving : phase.isLeaving = true) : Underway attempt log phase

theorem Passes.leaving (passes : Passes cancelled phase step after) (voiced : phase.Voiced)
    (leaving : phase.isLeaving = true) : after.isLeaving = true := by
  cases passes with
  | tells => cases voiced <;> first | rfl | cases leaving
  | teardown => rfl
  | farewell => rfl
  | other stays => exact leaving
  | _ => cases leaving

theorem Passes.others (passes : Passes cancelled phase step after) (other : step.ofChannel = false) :
    after = phase := by
  cases passes with
  | other stays => rfl
  | loses live loses => cases loses <;> cases other
  | hushed quits loses => cases loses <;> cases other
  | _ => cases other

namespace Transition

theorem dials_iff (t : Transition) : t.Dials attempt ↔
    ∃ a, t.before.phase.announces? t.step = some a ∧ a.state = .connecting ∧ a.attempt = attempt := by
  unfold Dials
  rcases t.published_cases with ⟨silent,none⟩ | ⟨a,told,announced,state,count⟩
  · simp [silent,none]
  · simp [told,announced,state,count]

theorem dials_connects (t : Transition) (voiced : t.before.phase.Voiced) (dials : t.Dials attempt) :
    t.after.phase = .connecting attempt := by
  obtain ⟨a,announced,state,rfl⟩ := t.dials_iff.mp dials
  obtain ⟨follow,m,phase,step⟩ := announces?_some announced
  have passes := t.passes
  rw [phase] at voiced passes
  rw [step] at passes
  generalize t.after.phase = after at passes ⊢
  cases voiced with
  | connecting =>
    cases passes with
    | tells => rfl
    | other stays => cases stays
  | _ => cases state

end Transition

theorem retry_iff {s : Monitor} (phase : s.phase = .waiting attempt deadline) (m : Moment) :
    (s.advance (.retry m)).isSome = true ↔ deadline ≤ m.clock := by
  simp only [Monitor.advance,Monitor.channelStep,phase,Monitor.when]
  split <;> simp_all

theorem openChannel_isSome {s : Monitor} (phase : s.phase = .opening attempt) (m : Moment) :
    (s.advance (.openChannel m)).isSome = true := by
  simp only [Monitor.advance,Monitor.channelStep,phase]
  split <;> rfl

theorem Underway.step {t : Transition} (underway : Underway attempt log t.before.phase)
    (voiced : t.before.phase.Voiced) (undialled : ∀ next, ¬ t.Dials next) (own : t.step.ofChannel = true) :
    Underway attempt (log ++ [t]) t.after.phase := by
  have passes := t.passes
  have dials next : t.Dials next ↔ _ := t.dials_iff
  generalize began : t.before.phase = phase at passes voiced underway dials
  generalize took : t.step = step at passes own dials
  generalize went : t.after.phase = after at passes ⊢
  cases underway with
  | dialled =>
    cases passes with
    | connects => exact .made took rfl
    | refused => exact .failed (.refused took (nextAttempt_toNat attempt)) rfl
    | leavesConnecting quits => exact .leaving rfl
    | other stays => cases own.symm.trans stays
  | made made connected =>
    cases passes with
    | tells => exact .up (.made made took)
    | other stays => cases own.symm.trans stays
  | up up =>
    cases passes with
    | reads goes => exact .up (.frame up took goes)
    | loses live loses => exact .failed (.lost up (took ▸ loses)) rfl
    | hushed quits loses => exact .leaving rfl
    | leavesReading quits => exact .leaving rfl
    | other stays => cases own.symm.trans stays
  | failed ended disconnected =>
    cases passes with
    | tells =>
      cases voiced with
      | waiting => exact .waiting ended took (reconnectDelay_delay ended.positive _) went
      | opening => exact .hurried ended took (openChannel_isSome went)
      | _ => cases disconnected
    | other stays => cases own.symm.trans stays
  | waiting ended tells delay begins =>
    cases passes with
    | retries due =>
      rw [List.append_assoc]
      exact .retried ended (.waits tells delay begins (retry_iff began) took due)
    | leavesWaiting quits => exact .leaving rfl
    | other stays => cases own.symm.trans stays
  | retried ended waits =>
    cases passes with
    | opens live =>
      rw [List.append_assoc]
      exact .opened (.waited ended waits took)
    | givesUp quits => exact .leaving rfl
    | other stays => cases own.symm.trans stays
  | hurried ended tells free =>
    cases passes with
    | opens live =>
      rw [List.append_assoc]
      exact .opened (.hurried ended tells free took)
    | givesUp quits => exact .leaving rfl
    | other stays => cases own.symm.trans stays
  | opened round =>
    cases passes with
    | tells => exact (undialled _ ((dials _).mpr ⟨_,rfl,rfl,rfl⟩)).elim
    | other stays => cases own.symm.trans stays
  | leaving leaving => exact .leaving (passes.leaving voiced leaving)

theorem channelSteps_concat (ts : List Transition) (t : Transition) :
    channelSteps (ts ++ [t]) = channelSteps ts ++ if t.step.ofChannel then [t] else [] := by
  unfold channelSteps
  rw [List.filter_append]
  cases own : t.step.ofChannel <;> simp [own]

theorem path_underway (path : Path s ts next) (voiced : s.phase.Voiced) (dialled : s.phase = .connecting attempt)
    (undialled : ∀ t ∈ ts, ∀ count, ¬ t.Dials count) : Underway attempt (channelSteps ts) next.phase := by
  have grown : next.phase.Voiced ∧ Underway attempt (channelSteps ts) next.phase := by
    refine path.preserves (motive := fun s ts => s.phase.Voiced ∧ Underway attempt (channelSteps ts) s.phase)
      ⟨voiced,dialled ▸ .dialled⟩ ?_
    rintro earlier t member _ ⟨voiced,underway⟩
    refine ⟨t.passes.voiced voiced,?_⟩
    rw [channelSteps_concat]
    cases own : t.step.ofChannel with
    | true => exact underway.step voiced (undialled t member) own
    | false =>
      rw [t.passes.others own,if_neg Bool.false_ne_true,List.append_nil]
      exact underway
  exact grown.2

def Phase.isFresh : Phase → Bool
  | .opening attempt => attempt = 0
  | .telling a _ => a.state = .stopped || (a.state = .connecting && a.attempt = 0)
  | .closing | .quiet | .stopped => true
  | _ => false

theorem Passes.fresh (passes : Passes cancelled phase step after) (voiced : phase.Voiced)
    (fresh : phase.isFresh = true)
    (undialled : ∀ a, phase.announces? step = some a → a.state ≠ .connecting) : after.isFresh = true := by
  cases passes with
  | givesUp quits => rfl
  | opens live => simpa [Phase.isFresh] using fresh
  | tells =>
    cases voiced with
    | connecting => exact (undialled _ rfl rfl).elim
    | stopped => rfl
    | _ => cases fresh
  | teardown => rfl
  | farewell => rfl
  | other stays => exact fresh
  | _ => cases fresh

theorem path_fresh (path : Path (Monitor.start settings m).1 ts s)
    (undialled : ∀ t ∈ ts, ∀ count, ¬ t.Dials count) : s.phase.isFresh = true := by
  refine path.preserves (motive := fun s _ => s.phase.isFresh = true) rfl ?_
  intro earlier t member before fresh
  refine t.passes.fresh (path_voiced before) fresh fun a announced connecting => ?_
  exact undialled t member a.attempt (t.dials_iff.mpr ⟨a,announced,connecting,rfl⟩)

theorem path_first_dial (path : Path (Monitor.start settings m).1 (earlier ++ dial :: later) s)
    (undialled : ∀ t ∈ earlier, ∀ count, ¬ t.Dials count) (dials : dial.Dials attempt) : attempt = 0 := by
  obtain ⟨before,_⟩ := path.cut
  have fresh := path_fresh before undialled
  obtain ⟨a,announced,connecting,rfl⟩ := dial.dials_iff.mp dials
  obtain ⟨follow,_,phase,_⟩ := announces?_some announced
  simpa [phase,Phase.isFresh,connecting] using fresh

theorem Underway.redials {step : Step} (underway : Underway attempt log phase)
    (announced : phase.announces? step = some a) (connecting : a.state = .connecting) :
    Round attempt log a.attempt := by
  obtain ⟨follow,_,rfl,_⟩ := announces?_some announced
  cases underway with
  | made made connected => cases connecting.symm.trans connected
  | failed ended disconnected => cases connecting.symm.trans disconnected
  | opened round => exact round
  | leaving leaving =>
    have stopped : a.state = .stopped := by simpa [Phase.isLeaving] using leaving
    cases connecting.symm.trans stopped

theorem path_redial (path : Path (Monitor.start settings m).1 (earlier ++ dial :: (between ++ redial :: later)) s)
    (dials : dial.Dials attempt) (redials : redial.Dials next)
    (undialled : ∀ t ∈ between, ∀ count, ¬ t.Dials count) : Round attempt (channelSteps between) next := by
  obtain ⟨before,sinceDial⟩ := path.cut
  obtain ⟨gap,_⟩ := sinceDial.cut
  have voiced := path_voiced before
  have underway := path_underway gap (dial.passes.voiced voiced) (dial.dials_connects voiced dials) undialled
  obtain ⟨a,announced,connecting,rfl⟩ := redial.dials_iff.mp redials
  exact underway.redials announced connecting

theorem Voices.connected (voices : Voices a follow) (connected : a.state = .connected) : a.attempt = 0 := by
  cases voices <;> first | rfl | cases connected

theorem path_connected (path : Path (Monitor.start settings m).1 ts s) :
    ∀ status, .status status ∈ eventsTold (toldBy settings m ts) →
      status.state = .connected → status.reconnectAttempt = 0 := by
  refine path.preserves (motive := fun _ ts => ∀ status, .status status ∈ eventsTold (toldBy settings m ts) →
    status.state = .connected → status.reconnectAttempt = 0) ?_ ?_
  · intro status told connected
    cases List.mem_singleton.mp told
    cases connected
  · intro earlier t _ before zero status told connected
    rw [toldBy_concat,eventsTold_append] at told
    rcases List.mem_append.mp told with prior | now
    · exact zero status prior connected
    · rcases t.tells.status now with ⟨a,follow,phase,state,attempt⟩ | ⟨state,attempt⟩
      · have voiced := path_voiced before
        rw [phase] at voiced
        exact attempt.trans (Voices.connected voiced (state.symm.trans connected))
      · have current := mem_statusesTold.mp (List.mem_of_getLast? (path_status before))
        exact attempt.trans (zero _ current (state.symm.trans connected))

structure BacksOff (settings : Settings) (m : Moment) (ts : List Transition) : Prop where
  first : ∀ earlier dial later attempt, ts = earlier ++ dial :: later →
    (∀ t ∈ earlier, ∀ count, ¬ t.Dials count) → dial.Dials attempt → attempt = 0
  next : ∀ earlier dial between redial later attempt next,
    ts = earlier ++ dial :: (between ++ redial :: later) → dial.Dials attempt → redial.Dials next →
      (∀ t ∈ between, ∀ count, ¬ t.Dials count) → Round attempt (channelSteps between) next
  connected : ∀ status, .status status ∈ eventsTold (toldBy settings m ts) →
    status.state = .connected → status.reconnectAttempt = 0

theorem dials_count_failures (path : Path (Monitor.start settings m).1 ts s) : BacksOff settings m ts := by
  refine ⟨?_,?_,path_connected path⟩
  · rintro earlier dial later attempt rfl undialled dials
    exact path_first_dial path undialled dials
  · rintro earlier dial between redial later attempt next rfl dials redials undialled
    exact path_redial path dials redials undialled

theorem dial_after_refusal : ∃ ts s between,
    let settings : Settings := ⟨defaultApiBaseUrl,defaultPushUrl,5000,10000,15000,15000,60000,600,none⟩
    let m : Moment := ⟨0,0⟩
    let back : Moment := ⟨400,400⟩
    Path (Monitor.start settings m).1 ts s ∧
      ts.map Transition.step = [.openChannel m,.tell m,.connectFailed .emptyGrid m,.tell m,.retry back,
        .openChannel back,.tell back] ∧
      between.map Transition.step = [.connectFailed .emptyGrid m,.tell m,.retry back,.openChannel back] ∧
      Round 0 between 1 := by
  let settings : Settings := ⟨defaultApiBaseUrl,defaultPushUrl,5000,10000,15000,15000,60000,600,none⟩
  let m : Moment := ⟨0,0⟩
  let back : Moment := ⟨400,400⟩
  let opened : Transition := ⟨(Monitor.start settings m).1,.openChannel m,_,_,rfl⟩
  let dial : Transition := ⟨opened.after,.tell m,_,_,rfl⟩
  let refused : Transition := ⟨dial.after,.connectFailed .emptyGrid m,_,_,rfl⟩
  let told : Transition := ⟨refused.after,.tell m,_,_,rfl⟩
  let retried : Transition := ⟨told.after,.retry back,_,_,rfl⟩
  let opening : Transition := ⟨retried.after,.openChannel back,_,_,rfl⟩
  let redial : Transition := ⟨opening.after,.tell back,_,_,rfl⟩
  have between : Path refused.before [refused,told,retried,opening] opening.after :=
    .cons refused (.cons told (.cons retried (.cons opening .nil)))
  have path : Path (Monitor.start settings m).1 ([opened] ++ dial :: ([refused,told,retried,opening] ++ [redial]))
      redial.after := .cons opened (.cons dial (between.append (.cons redial .nil)))
  have undialled : ∀ t ∈ [refused,told,retried,opening], ∀ count, ¬ t.Dials count := by
    intro t member count dials
    obtain ⟨a,announced,connecting,_⟩ := t.dials_iff.mp dials
    simp only [List.mem_cons,List.not_mem_nil,or_false] at member
    rcases member with rfl | rfl | rfl | rfl <;> cases announced
    cases connecting
  obtain ⟨_,rounds,_⟩ := dials_count_failures path
  have round := rounds [opened] dial [refused,told,retried,opening] redial [] 0 1 rfl
    ⟨_,rfl,rfl,rfl⟩ ⟨_,rfl,rfl,rfl⟩ undialled
  exact ⟨_,_,_,path,rfl,rfl,round⟩

end RunWatch.Session
