import ClickMobileIP.Agent.AdvertiserTimer

/-! # Sequence numbers of advertisements

The number is kept in network byte order and stepped by adding `htons(1)`, which adds to
the high byte of the swapped value and loses its carry. The host never sees `0xffff`, so
the branch that goes on with 256 is never taken and the numbers repeat after 255.
-/
namespace ClickMobileIP.AgentAdvertiser
open EventRun

/-- The number meant for packet `n`: after 65535 it goes on with 256. -/
def intendedSequenceNum (n : ℕ) : ℕ := if n ≤ 65535 then n else 256 + (n - 65536) % 65280

def sequenceNumOf (p : Packet) : ℕ := (ntohs p.advertisement.sequenceNum).toNat

def InSequence (out : List (ℕ × Packet)) : Prop :=
  ∀ n x, out[n]? = some x → sequenceNumOf x.2 = intendedSequenceNum n

section Steps
variable {agent : AgentBase} {w v : Running} {e : Event} {out : List (ℕ × Packet)}

theorem sendAdvertisement_sent (agent : AgentBase) (w : Running) (time rand : ℕ) (alloc : Bool) :
    (sendAdvertisement agent w time rand alloc).1.advertiser.sequenceNum =
        (if alloc then nextSequenceNum w.advertiser.sequenceNum else w.advertiser.sequenceNum) ∧
      (sendAdvertisement agent w time rand alloc).2 =
        if alloc then [(time,w.advertiser.advertisementPacket agent)] else [] := by
  cases alloc with
  | false => exact ⟨rfl,rfl⟩
  | true => exact ⟨rfl,rfl⟩

theorem step_sent (h : step agent w e = some (v,out)) :
    v.advertiser.sequenceNum =
        (if e.alloc then nextSequenceNum w.advertiser.sequenceNum else w.advertiser.sequenceNum) ∧
      out = if e.alloc then [(e.time w,w.advertiser.advertisementPacket agent)] else [] := by
  cases e with
  | solicitation time rand alloc =>
    rw [step] at h
    split at h
    · cases h
      exact sendAdvertisement_sent agent w time rand alloc
    · cases h
  | fire rand alloc =>
    cases h
    exact sendAdvertisement_sent agent w w.timer.expiry rand alloc

/-- A counter whose low byte is zero stays so: only the high byte counts. -/
theorem nextSequenceNum_toNat {sequenceNum : UInt16} {n : ℕ} (h : sequenceNum.toNat = 256 * n % 65536) :
    (nextSequenceNum sequenceNum).toNat = 256 * (n + 1) % 65536 := by
  have hlow : sequenceNum ≠ 0xffff := by
    rintro rfl
    have hmax : (0xffff : UInt16).toNat = 65535 := rfl
    omega
  rw [nextSequenceNum,if_neg hlow,UInt16.toNat_add,htons_one_toNat,h]
  omega

theorem sequenceNumOf_advertisementPacket {a : AgentAdvertiser} {n : ℕ} (agent : AgentBase)
    (h : a.sequenceNum.toNat = 256 * n % 65536) : sequenceNumOf (a.advertisementPacket agent) = n % 256 := by
  simp only [sequenceNumOf,advertisement_advertisementPacket,sealAdvertisement,advertisementHeader,ntohs]
  rw [htons_toNat,h]
  omega

end Steps

section Runs
variable {agent : AgentBase} {w v : Running} {out : List (ℕ × Packet)}

/-- The counter after the packets of `log`, and the number that each of them carries. -/
structure Counted (w : Running) (log : List (ℕ × Packet)) : Prop where
  counter : w.advertiser.sequenceNum.toNat = 256 * log.length % 65536
  carried : ∀ n x, log[n]? = some x → sequenceNumOf x.2 = n % 256

theorem counted_step {e : Event} {log : List (ℕ × Packet)} (h : Counted w log)
    (hstep : step agent w e = some (v,out)) : Counted v (log ++ out) := by
  obtain ⟨hseq,rfl⟩ := step_sent hstep
  cases halloc : e.alloc with
  | false =>
    rw [halloc] at hseq
    simp only [Bool.false_eq_true,↓reduceIte,List.append_nil] at hseq ⊢
    exact ⟨by rw [hseq]; exact h.counter,h.carried⟩
  | true =>
    rw [halloc] at hseq
    simp only [↓reduceIte] at hseq ⊢
    refine ⟨?_,?_⟩
    · rw [hseq,List.length_append]
      exact nextSequenceNum_toNat h.counter
    · intro n x hx
      rcases Nat.lt_trichotomy n log.length with hn | rfl | hn
      · rw [List.getElem?_append_left hn] at hx
        exact h.carried n x hx
      · rw [List.getElem?_concat_length] at hx
        cases hx
        exact sequenceNumOf_advertisementPacket agent h.counter
      · have hend : (log ++ [(e.time w,w.advertiser.advertisementPacket agent)]).length ≤ n := by
          rw [List.length_append]
          exact hn
        rw [List.getElem?_eq_none hend] at hx
        cases hx

theorem length_run {es : List Event} (hr : run (step agent) w es = some (v,out)) :
    out.length = es.countP Event.alloc := by
  induction es generalizing w out with
  | nil =>
    cases hr
    rfl
  | cons e es ih =>
    obtain ⟨u,o,o',hstep,hrest,rfl⟩ := run_cons_eq_some.mp hr
    obtain ⟨-,rfl⟩ := step_sent hstep
    rw [List.length_append,ih hrest,List.countP_cons]
    cases e.alloc <;> simp [Nat.add_comm]

theorem sequenceNum_configure {fa ha : Bool} {lifetimeAdv interval : ℤ} {a : AgentAdvertiser}
    (hconf : configure fa ha lifetimeAdv interval = some a) : a.sequenceNum = 0 := by
  unfold configure at hconf
  split_ifs at hconf
  cases hconf
  rfl

theorem intendedSequenceNum_eq_mod {n : ℕ} : n % 256 = intendedSequenceNum n ↔ n < 256 := by
  unfold intendedSequenceNum
  split_ifs <;> omega

/-- In every run of a configured advertiser, fired or solicited in any order, packet `n`
carries `n % 256`; it is the number meant for it exactly for the first 256 packets. -/
theorem in_sequence_iff {fa ha : Bool} {lifetimeAdv interval : ℤ} {a : AgentAdvertiser}
    (hconf : configure fa ha lifetimeAdv interval = some a) {now : ℕ} {es : List Event}
    (hr : run (step agent) (started a now) es = some (w,out)) :
    (∀ n x, out[n]? = some x → sequenceNumOf x.2 = n % 256) ∧
      (∀ n x, out[n]? = some x → (sequenceNumOf x.2 = intendedSequenceNum n ↔ n < 256)) ∧
      (InSequence out ↔ es.countP Event.alloc ≤ 256) := by
  have hstart : Counted (started a now) [] := by
    refine ⟨?_,by simp⟩
    rw [started,sequenceNum_configure hconf]
    rfl
  have hrun : Counted w out := run_invariant (fun _ _ _ _ _ => counted_step) hstart hr
  have heach : ∀ n x, out[n]? = some x → (sequenceNumOf x.2 = intendedSequenceNum n ↔ n < 256) := by
    intro n x hx
    rw [hrun.carried n x hx]
    exact intendedSequenceNum_eq_mod
  refine ⟨hrun.carried,heach,?_⟩
  rw [← length_run hr]
  constructor
  · intro h
    by_contra hlong
    have hat : out[256]? = some (out[256]) := List.getElem?_eq_getElem (by omega)
    exact absurd ((heach 256 _ hat).mp (h 256 _ hat)) (by omega)
  · intro hshort n x hx
    have hn : n < out.length := (List.getElem?_eq_some_iff.mp hx).1
    exact (heach n x hx).mpr (by omega)

theorem in_sequence_sample :
    ∃ w out, run (step (AgentBase.configure 1 2 25)) (started scriptAdvertiser 0) [.fire 35 true,.fire 35 true] =
      some (w,out) ∧ InSequence out := by
  have hconf : configure true true 60 15000 = some scriptAdvertiser := by decide
  obtain ⟨⟨w,out⟩,hr⟩ : ∃ r, run (step (AgentBase.configure 1 2 25)) (started scriptAdvertiser 0)
      [.fire 35 true,.fire 35 true] = some r := ⟨_,rfl⟩
  exact ⟨w,out,hr,(in_sequence_iff hconf hr).2.2.mpr (by decide)⟩

/-- The packet after the one with number 255 carries 0 again: an agent that has run for
about an hour looks restarted. -/
theorem number_zero_again :
    configure true true 60 15000 = some scriptAdvertiser ∧
    ∃ w out x, run (step (AgentBase.configure 1 2 25)) (started scriptAdvertiser 0)
        (List.replicate 257 (.fire 35 true)) = some (w,out) ∧
      out[256]? = some x ∧ sequenceNumOf x.2 = 0 ∧ intendedSequenceNum 256 = 256 ∧ ¬InSequence out := by
  have hlast : (run (step (AgentBase.configure 1 2 25)) (started scriptAdvertiser 0)
      (List.replicate 257 (.fire 35 true))).any
      (fun r => (r.2[256]?).any (fun x => decide (sequenceNumOf x.2 = 0))) = true := by decide +kernel
  obtain ⟨⟨w,out⟩,hr,hout⟩ := (Option.any_eq_true _ _).mp hlast
  obtain ⟨x,hx,hzero⟩ := (Option.any_eq_true _ _).mp hout
  have hnumber : sequenceNumOf x.2 = 0 := of_decide_eq_true hzero
  refine ⟨by decide,w,out,x,hr,hx,hnumber,rfl,fun h => ?_⟩
  have hmeant : sequenceNumOf x.2 = 256 := h 256 x hx
  omega

end Runs
end ClickMobileIP.AgentAdvertiser
