import ClickMobileIP.Agent.AgentAdvertiser
import ClickMobileIP.Support.EventRun
import Mathlib.Data.List.Chain

/-! # The timer of the advertiser

A solicitation and the timer both send an advertisement and both move the expiry of the
timer by a random delay around the interval, counted from the previous expiry. Runs
interleave solicitations at any time before the expiry with firings at the expiry. The
results say exactly when the expiry stays close to the last advertisement.
-/
namespace ClickMobileIP.AgentAdvertiser
open EventRun

/-- Timestamps count nanoseconds. -/
def msec (n : ℕ) : ℕ := n * 1000000

structure Timer where
  expiry : ℕ
  deriving DecidableEq, Repr

/-- The delay counts from the previous expiry, not from now. -/
def Timer.rescheduleAfterMsec (timer : Timer) (delta : ℕ) : Timer := ⟨timer.expiry + msec delta⟩

/-- `interval + ((rand() % 70) - 35)`, passed on as a `uint32_t`. -/
def randomDelay (a : AgentAdvertiser) (rand : ℕ) : ℕ :=
  ((a.interval + (((rand % 70 : ℕ) : ℤ) - 35)) % 2 ^ 32).toNat

/-- An advertiser with its timer; `last` is the time of its latest advertisement. -/
structure Running where
  advertiser : AgentAdvertiser
  timer : Timer
  now : ℕ
  last : Option ℕ
  deriving DecidableEq, Repr

/-- The common body of `push` and `runTimer` at a given time. -/
def sendAdvertisement (agent : AgentBase) (w : Running) (time rand : ℕ) (alloc : Bool) :
    Running × List (ℕ × Packet) :=
  let r := w.advertiser.createPacket alloc agent
  ({ advertiser := r.2
     timer := w.timer.rescheduleAfterMsec (randomDelay r.2 rand)
     now := time
     last := if r.1.isSome then some time else w.last },
    r.1.toList.map (fun p => (time,p)))

def push (agent : AgentBase) (w : Running) (time rand : ℕ) (alloc : Bool) : Running × List (ℕ × Packet) :=
  sendAdvertisement agent w time rand alloc

def runTimer (agent : AgentBase) (w : Running) (rand : ℕ) (alloc : Bool) : Running × List (ℕ × Packet) :=
  sendAdvertisement agent w w.timer.expiry rand alloc

/-- The timer first fires one millisecond after the configuration. -/
def started (a : AgentAdvertiser) (now : ℕ) : Running := ⟨a,⟨now + msec 1⟩,now,none⟩

inductive Event
  | solicitation (time rand : ℕ) (alloc : Bool)
  | fire (rand : ℕ) (alloc : Bool)

def Event.rand : Event → ℕ
  | .solicitation _ rand _ => rand
  | .fire rand _ => rand

def Event.alloc : Event → Bool
  | .solicitation _ _ alloc => alloc
  | .fire _ alloc => alloc

def Event.time (w : Running) : Event → ℕ
  | .solicitation time _ _ => time
  | .fire _ _ => w.timer.expiry

/-- A solicitation cannot arrive in the past, nor after the timer should have fired. -/
def step (agent : AgentBase) (w : Running) : Event → Option (Running × List (ℕ × Packet))
  | .solicitation time rand alloc =>
    if w.now ≤ time ∧ time ≤ w.timer.expiry then some (push agent w time rand alloc) else none
  | .fire rand alloc => some (runTimer agent w rand alloc)

def Event.latest (w : Running) (e : Event) : Option ℕ := if e.alloc then some (e.time w) else w.last

/-- The expiry is at most INTERVAL + 34 ms after the latest advertisement. -/
def Timely (w : Running) : Prop :=
  ∀ l ∈ w.last, w.timer.expiry ≤ l + msec (w.advertiser.interval.toNat + 34)

instance (w : Running) : Decidable (Timely w) := inferInstanceAs (Decidable (∀ l ∈ w.last, _))

/-- The timer was due within 69 ms, less the random term, of the advertisement that is the
latest after the event. A firing that sends is always such an event. -/
def Spares (w : Running) (e : Event) : Prop :=
  ∀ l ∈ e.latest w, w.timer.expiry ≤ l + msec (69 - e.rand % 70)

section Steps
variable {agent : AgentBase} {w v : Running} {e : Event} {out : List (ℕ × Packet)}

structure Stepped (w : Running) (e : Event) (v : Running) (out : List (ℕ × Packet)) : Prop where
  interval : v.advertiser.interval = w.advertiser.interval
  expiry : v.timer.expiry = w.timer.expiry + msec (w.advertiser.randomDelay e.rand)
  last : v.last = e.latest w
  notLate : e.time w ≤ w.timer.expiry
  sent : out.map Prod.fst = if e.alloc then [e.time w] else []

theorem stepped_of_step (h : step agent w e = some (v,out)) : Stepped w e v out := by
  have hbody : ∀ time rand alloc, sendAdvertisement agent w time rand alloc = (v,out) →
      v.advertiser.interval = w.advertiser.interval ∧
        v.timer.expiry = w.timer.expiry + msec (w.advertiser.randomDelay rand) ∧
        v.last = (if alloc then some time else w.last) ∧
        out.map Prod.fst = if alloc then [time] else [] := by
    intro time rand alloc hsend
    cases alloc with
    | false =>
      cases hsend
      exact ⟨rfl,rfl,rfl,rfl⟩
    | true =>
      cases hsend
      exact ⟨rfl,rfl,rfl,rfl⟩
  cases e with
  | solicitation time rand alloc =>
    rw [step] at h
    split at h
    · rename_i hnow
      obtain ⟨hinterval,hexpiry,hlast,hsent⟩ := hbody time rand alloc (Option.some.inj h)
      exact ⟨hinterval,hexpiry,hlast,hnow.2,hsent⟩
    · cases h
  | fire rand alloc =>
    obtain ⟨hinterval,hexpiry,hlast,hsent⟩ := hbody _ rand alloc (Option.some.inj h)
    exact ⟨hinterval,hexpiry,hlast,Nat.le_refl _,hsent⟩

theorem randomDelay_eq {a : AgentAdvertiser} (hlow : 35 ≤ a.interval) (hhigh : a.interval < 2 ^ 31) (rand : ℕ) :
    a.randomDelay rand = a.interval.toNat + rand % 70 - 35 := by
  unfold randomDelay
  omega

theorem timely_iff_spares (hlow : 35 ≤ w.advertiser.interval) (hhigh : w.advertiser.interval < 2 ^ 31)
    (h : Stepped w e v out) : Timely v ↔ Spares w e := by
  unfold Timely Spares
  rw [h.last,h.expiry,h.interval,randomDelay_eq hlow hhigh]
  refine forall_congr' fun l => forall_congr' fun _ => ?_
  have hmod : e.rand % 70 < 70 := Nat.mod_lt _ (by omega)
  simp only [msec]
  omega

theorem spares_fire (w : Running) (rand : ℕ) : Spares w (.fire rand true) := by
  intro l hl
  cases hl
  exact Nat.le_add_right _ _

end Steps

section Runs
variable {agent : AgentBase} {a : AgentAdvertiser} {w : Running} {out : List (ℕ × Packet)}

def TimelyAlong (agent : AgentBase) (w : Running) (es : List Event) : Prop :=
  ∀ pre post v out, es = pre ++ post → run (step agent) w pre = some (v,out) → Timely v

def SparesAlong (agent : AgentBase) (w : Running) (es : List Event) : Prop :=
  ∀ pre e post v out, es = pre ++ e :: post → run (step agent) w pre = some (v,out) → Spares v e

theorem interval_run {es : List Event} {v : Running} (hr : run (step agent) w es = some (v,out)) :
    v.advertiser.interval = w.advertiser.interval :=
  run_preserves (P := fun u => u.advertiser.interval = w.advertiser.interval)
    (fun _ _ _ _ hu hstep => (stepped_of_step hstep).interval.trans hu) rfl hr

theorem timelyAlong_iff (hlow : 35 ≤ a.interval) (hhigh : a.interval < 2 ^ 31) {now : ℕ} {es : List Event}
    (hr : run (step agent) (started a now) es = some (w,out)) :
    TimelyAlong agent (started a now) es ↔ SparesAlong agent (started a now) es := by
  have hkept : ∀ pre v o, run (step agent) (started a now) pre = some (v,o) → v.advertiser.interval = a.interval :=
    fun pre v o hpre => interval_run hpre
  constructor
  · intro htimely pre e post v o hes hpre
    rw [hes,List.append_cons] at hr
    obtain ⟨u,o₁,o₂,hnext,-,-⟩ := run_append_eq_some.mp hr
    obtain ⟨v',o₃,o₄,hpre',hstep,-⟩ := run_concat_eq_some.mp hnext
    rw [hpre] at hpre'
    cases hpre'
    have hu := htimely (pre ++ [e]) post u o₁ (by rw [hes,List.append_cons]) hnext
    rw [← hkept pre v o hpre] at hlow hhigh
    exact (timely_iff_spares hlow hhigh (stepped_of_step hstep)).mp hu
  · intro hspares pre post v o hes hpre
    rcases List.eq_nil_or_concat pre with rfl | ⟨init,e,rfl⟩
    · cases hpre
      intro l hl
      cases hl
    · rw [List.concat_eq_append] at hpre hes
      obtain ⟨u,o₁,o₂,hinit,hstep,-⟩ := run_concat_eq_some.mp hpre
      have hu := hspares init e post u o₁ (by rw [hes,List.append_assoc]; rfl) hinit
      rw [← hkept init u o₁ hinit] at hlow hhigh
      exact (timely_iff_spares hlow hhigh (stepped_of_step hstep)).mpr hu

def GapsWithin (gap : ℕ) (out : List (ℕ × Packet)) : Prop := out.IsChain (fun x y => y.1 ≤ x.1 + gap)

instance (gap : ℕ) (out : List (ℕ × Packet)) : Decidable (GapsWithin gap out) :=
  inferInstanceAs (Decidable (out.IsChain _))

theorem gapsWithin_of_timely {now : ℕ} {es : List Event} (htimely : TimelyAlong agent (started a now) es)
    (hr : run (step agent) (started a now) es = some (w,out)) :
    (out.map Prod.fst).getLast? = w.last ∧ GapsWithin (msec (a.interval.toNat + 34)) out := by
  induction es using List.reverseRecOn generalizing w out with
  | nil =>
    cases hr
    exact ⟨rfl,List.IsChain.nil⟩
  | append_singleton es e ih =>
    obtain ⟨v,o,o',hpre,hstep,rfl⟩ := run_concat_eq_some.mp hr
    obtain ⟨hlast,hgaps⟩ := ih (fun pre post u o hes => htimely pre (post ++ [e]) u o (by rw [hes,List.append_assoc])) hpre
    have hv : Timely v := htimely es [e] v o rfl hpre
    have hinterval : v.advertiser.interval = a.interval := interval_run hpre
    have hstepped := stepped_of_step hstep
    cases halloc : e.alloc with
    | false =>
      have hnone : o' = [] := by
        have hsent := hstepped.sent
        rw [halloc] at hsent
        exact List.map_eq_nil_iff.mp hsent
      rw [hnone,List.append_nil]
      refine ⟨?_,hgaps⟩
      rw [hlast,hstepped.last,Event.latest,halloc]
      rfl
    | true =>
      have hsent := hstepped.sent
      rw [halloc,if_pos rfl] at hsent
      constructor
      · rw [List.map_append,hsent,hstepped.last,Event.latest,halloc,if_pos rfl]
        exact List.getLast?_concat
      · obtain ⟨x,rfl,hx⟩ := List.map_eq_singleton_iff.mp hsent
        apply hgaps.append (List.IsChain.singleton x)
        intro y hy z hz
        cases hz
        have hsince : y.1 ∈ v.last := by
          rw [← hlast,List.getLast?_map,hy]
          rfl
        have hbound := hv y.1 hsince
        rw [hinterval] at hbound
        exact hx ▸ hstepped.notLate.trans hbound

def FitsInt (n : ℤ) : Prop := -2 ^ 31 ≤ n ∧ n < 2 ^ 31

theorem configure_eq_some {fa ha : Bool} {lifetimeAdv interval : ℤ}
    (h : configure fa ha lifetimeAdv interval = some a) :
    ¬(ha = false ∧ fa = false) ∧ a.lifetimeAdv = lifetimeAdv ∧ a.interval = interval := by
  unfold configure at h
  split_ifs at h with hthird hroles
  cases h
  exact ⟨hroles,rfl,rfl⟩

/-- Where nothing wraps, `configure` tests what it means to test. -/
theorem configure_isSome_iff {fa ha : Bool} {lifetimeAdv interval : ℤ} (hroles : ¬(ha = false ∧ fa = false))
    (hinterval : FitsInt (interval * 3)) (hlifetime : FitsInt (lifetimeAdv * 1000)) :
    (configure fa ha lifetimeAdv interval).isSome ↔ interval * 3 ≤ lifetimeAdv * 1000 := by
  unfold configure
  rw [Int.bmod_eq_of_le (by have := hlifetime.1; omega) (by have := hlifetime.2; omega),
    Int.bmod_eq_of_le (by have := hinterval.1; omega) (by have := hinterval.2; omega),if_neg hroles]
  split
  · rename_i hlt
    simp only [Option.isSome_none]
    constructor
    · intro h
      cases h
    · intro h
      omega
  · rename_i hge
    exact ⟨fun _ => not_lt.mp hge,fun _ => rfl⟩

theorem third_configure {fa ha : Bool} {lifetimeAdv interval : ℤ}
    (hconf : configure fa ha lifetimeAdv interval = some a) (hinterval : FitsInt (interval * 3))
    (hlifetime : FitsInt (lifetimeAdv * 1000)) : interval * 3 ≤ lifetimeAdv * 1000 := by
  obtain ⟨hroles,-⟩ := configure_eq_some hconf
  exact (configure_isSome_iff hroles hinterval hlifetime).mp (by rw [hconf]; rfl)

/-- For every accepted configuration and every run: the expiry is never later than
INTERVAL + 34 ms after the latest advertisement exactly when every event spares the timer.
Where the products in `configure` do not overflow, consecutive advertisements are then
never further apart than the lifetime LTADV, given in seconds. -/
theorem never_lapses_iff {fa ha : Bool} {lifetimeAdv interval : ℤ}
    (hconf : configure fa ha lifetimeAdv interval = some a) (hlow : 35 ≤ interval) (hint : FitsInt interval)
    {now : ℕ} {es : List Event} (hr : run (step agent) (started a now) es = some (w,out)) :
    (TimelyAlong agent (started a now) es ↔ SparesAlong agent (started a now) es) ∧
      (FitsInt (interval * 3) → FitsInt (lifetimeAdv * 1000) →
        (TimelyAlong agent (started a now) es ∧ GapsWithin (msec (lifetimeAdv.toNat * 1000)) out ↔
          SparesAlong agent (started a now) es)) := by
  have hkept := (configure_eq_some hconf).2.2
  have hiff := timelyAlong_iff (hkept ▸ hlow) (hkept ▸ hint.2) hr
  refine ⟨hiff,fun hinterval hlifetime => ⟨fun h => hiff.mp h.1,fun hspares => ⟨hiff.mpr hspares,?_⟩⟩⟩
  have hthird := third_configure hconf hinterval hlifetime
  have hgaps := (gapsWithin_of_timely (hiff.mpr hspares) hr).2
  apply List.IsChain.imp ?_ hgaps
  intro x y hxy
  apply hxy.trans
  simp only [msec]
  omega

def scriptAdvertiser : AgentAdvertiser := ⟨true,true,60,15000,0⟩

/-- The timer fires twice, 15 seconds apart. -/
theorem never_lapses_sample :
    ∃ w out, run (step (AgentBase.configure 1 2 25)) (started scriptAdvertiser 0) [.fire 35 true,.fire 35 true] =
        some (w,out) ∧
      TimelyAlong (AgentBase.configure 1 2 25) (started scriptAdvertiser 0) [.fire 35 true,.fire 35 true] ∧
      GapsWithin (msec 60000) out := by
  have hconf : configure true true 60 15000 = some scriptAdvertiser := by decide
  obtain ⟨⟨w,out⟩,hr⟩ : ∃ r, run (step (AgentBase.configure 1 2 25)) (started scriptAdvertiser 0)
      [.fire 35 true,.fire 35 true] = some r := ⟨_,rfl⟩
  obtain ⟨-,hiff⟩ := never_lapses_iff hconf (by decide) ⟨by decide,by decide⟩ hr
  have hspares : SparesAlong (AgentBase.configure 1 2 25) (started scriptAdvertiser 0)
      [.fire 35 true,.fire 35 true] := by
    intro pre e post v o hes _
    have he : e ∈ [Event.fire 35 true,Event.fire 35 true] := by
      rw [hes]
      exact List.mem_append_right _ List.mem_cons_self
    have hfire : e = .fire 35 true := by simpa using he
    rw [hfire]
    exact spares_fire v 35
  obtain ⟨htimely,hgaps⟩ := (hiff ⟨by decide,by decide⟩ ⟨by decide,by decide⟩).mpr hspares
  exact ⟨w,out,hr,htimely,hgaps⟩

def burst : List Event := .fire 35 true :: List.replicate 4 (.solicitation (msec 2) 35 true)

/-- Each solicitation of the burst moves the expiry 15 seconds away; the next
advertisement comes after 75 seconds, when the lifetime of 60 is over. -/
theorem burst_lapses :
    configure true true 60 15000 = some scriptAdvertiser ∧
    (∃ w out, run (step (AgentBase.configure 1 2 25)) (started scriptAdvertiser 0) burst = some (w,out) ∧
      ¬Timely w) ∧
    ∃ w out, run (step (AgentBase.configure 1 2 25)) (started scriptAdvertiser 0) (burst ++ [.fire 35 true]) =
      some (w,out) ∧ ¬GapsWithin (msec 60000) out := by
  have hburst : (run (step (AgentBase.configure 1 2 25)) (started scriptAdvertiser 0) burst).any
      (fun r => decide (¬Timely r.1)) = true := by decide +kernel
  have hfire : (run (step (AgentBase.configure 1 2 25)) (started scriptAdvertiser 0) (burst ++ [.fire 35 true])).any
      (fun r => decide (¬GapsWithin (msec 60000) r.2)) = true := by decide +kernel
  obtain ⟨⟨w,out⟩,hr,hw⟩ := (Option.any_eq_true _ _).mp hburst
  obtain ⟨⟨w',out'⟩,hr',hw'⟩ := (Option.any_eq_true _ _).mp hfire
  exact ⟨by decide,⟨w,out,hr,of_decide_eq_true hw⟩,w',out',hr',of_decide_eq_true hw'⟩

end Runs
end ClickMobileIP.AgentAdvertiser
