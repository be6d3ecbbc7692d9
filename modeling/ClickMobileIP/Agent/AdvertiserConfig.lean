import ClickMobileIP.Agent.SequenceNumbers

/-! # Accepted configurations of the advertiser

`configure` wants an interval of at most a third of the lifetime, so that two advertisements
in a row may be lost. It compares products that wrap at thirty-two bits, the lifetime is cut
to sixteen bits on the wire, and the random term may make a short interval negative before it
becomes unsigned. The results say exactly which of the accepted configurations come out right.
-/
namespace ClickMobileIP.AgentAdvertiser
open EventRun

structure Sound (a : AgentAdvertiser) : Prop where
  lifetime : ∀ agent now es w out, run (step agent) (started a now) es = some (w,out) →
    ∀ x ∈ out, 3 * a.interval ≤ ((ntohs x.2.advertisement.lifetime).toNat : ℤ) * 1000
  delay : ∀ agent now es w out, run (step agent) (started a now) es = some (w,out) →
    ∀ rand, a.interval - 35 ≤ w.advertiser.randomDelay rand ∧
      (w.advertiser.randomDelay rand : ℤ) ≤ a.interval + 34

section Runs
variable {agent : AgentBase} {a : AgentAdvertiser} {w v : Running} {out : List (ℕ × Packet)}

theorem lifetime_advertisementPacket (a : AgentAdvertiser) (agent : AgentBase) :
    ((ntohs (a.advertisementPacket agent).advertisement.lifetime).toNat : ℤ) = a.lifetimeAdv % 65536 := by
  have hfield : (a.advertisementPacket agent).advertisement.lifetime = htons (toUInt16 a.lifetimeAdv) := by
    rw [advertisement_advertisementPacket]
    rfl
  rw [hfield,ntohs_htons,toUInt16_toNat]

theorem lifetimeAdv_step {e : Event} (h : step agent w e = some (v,out)) :
    v.advertiser.lifetimeAdv = w.advertiser.lifetimeAdv := by
  have hbody : ∀ time rand alloc, sendAdvertisement agent w time rand alloc = (v,out) →
      v.advertiser.lifetimeAdv = w.advertiser.lifetimeAdv := by
    intro time rand alloc hsend
    cases alloc with
    | false =>
      cases hsend
      rfl
    | true =>
      cases hsend
      rfl
  cases e with
  | solicitation time rand alloc =>
    rw [step] at h
    split at h
    · exact hbody time rand alloc (Option.some.inj h)
    · cases h
  | fire rand alloc => exact hbody _ rand alloc (Option.some.inj h)

/-- What is left of the configuration after a run, and on the wire. -/
structure Carried (a : AgentAdvertiser) (w : Running) (out : List (ℕ × Packet)) : Prop where
  lifetimeAdv : w.advertiser.lifetimeAdv = a.lifetimeAdv
  interval : w.advertiser.interval = a.interval
  lifetime : ∀ x ∈ out, ((ntohs x.2.advertisement.lifetime).toNat : ℤ) = a.lifetimeAdv % 65536

theorem carried_run {now : ℕ} {es : List Event} (hr : run (step agent) (started a now) es = some (w,out)) :
    Carried a w out := by
  have hstart : Carried a (started a now) [] := ⟨rfl,rfl,fun x hx => absurd hx List.not_mem_nil⟩
  refine run_invariant (P := Carried a) ?_ hstart hr
  intro u log e t sent hu hstep
  obtain ⟨-,hsent⟩ := step_sent hstep
  refine ⟨(lifetimeAdv_step hstep).trans hu.lifetimeAdv,(stepped_of_step hstep).interval.trans hu.interval,?_⟩
  intro x hx
  rcases List.mem_append.mp hx with h | h
  · exact hu.lifetime x h
  · rw [hsent] at h
    split at h
    · rw [List.mem_singleton.mp h,lifetime_advertisementPacket,hu.lifetimeAdv]
    · exact absurd h List.not_mem_nil

theorem run_fire (agent : AgentBase) (a : AgentAdvertiser) (now rand : ℕ) :
    ∃ w, run (step agent) (started a now) [.fire rand true] =
      some (w,[(now + msec 1,a.advertisementPacket agent)]) := ⟨_,rfl⟩

theorem delay_iff (hint : FitsInt a.interval) :
    (∀ rand, a.interval - 35 ≤ a.randomDelay rand ∧ (a.randomDelay rand : ℤ) ≤ a.interval + 34) ↔
      35 ≤ a.interval := by
  obtain ⟨hlow,hhigh⟩ := hint
  constructor
  · intro h
    -- The smallest term turns a shorter interval into more than twenty-four days.
    obtain ⟨-,hmax⟩ := h 0
    unfold randomDelay at hmax
    omega
  · intro h rand
    rw [randomDelay_eq h hhigh]
    omega

theorem sound_iff (hint : FitsInt a.interval) :
    Sound a ↔ 35 ≤ a.interval ∧ 3 * a.interval ≤ a.lifetimeAdv % 65536 * 1000 := by
  constructor
  · intro h
    refine ⟨(delay_iff hint).mp (h.delay (AgentBase.configure 0 0 0) 0 [] _ _ rfl),?_⟩
    obtain ⟨w,hr⟩ := run_fire (AgentBase.configure 0 0 0) a 0 0
    have hsent := h.lifetime _ _ _ _ _ hr _ List.mem_cons_self
    rwa [lifetime_advertisementPacket] at hsent
  · rintro ⟨hlow,hthird⟩
    constructor
    · intro agent now es w out hr x hx
      rw [(carried_run hr).lifetime x hx]
      exact hthird
    · intro agent now es w out hr rand
      have hinterval := (carried_run hr).interval
      have hw : w.advertiser.randomDelay rand = a.randomDelay rand := by
        unfold randomDelay
        rw [hinterval]
      rw [hw]
      exact (delay_iff hint).mpr hlow rand

end Runs

section Configure
variable {fa ha : Bool} {lifetimeAdv interval : ℤ} {a : AgentAdvertiser}

/-- An accepted configuration is sound exactly when the interval is at least 35 ms, three times
the interval is an `int`, and the lifetime would also be accepted as it stands on the wire. -/
theorem configuration_sound_iff (hint : FitsInt interval)
    (hconf : configure fa ha lifetimeAdv interval = some a) :
    Sound a ↔ 35 ≤ interval ∧ FitsInt (interval * 3) ∧
      (configure fa ha (lifetimeAdv % 65536) interval).isSome := by
  obtain ⟨hroles,hlifetime,hinterval⟩ := configure_eq_some hconf
  rw [sound_iff (hinterval ▸ hint),hlifetime,hinterval]
  have hwire : FitsInt (lifetimeAdv % 65536 * 1000) := ⟨by omega,by omega⟩
  constructor
  · rintro ⟨hlow,hthird⟩
    have hfits : FitsInt (interval * 3) := ⟨by omega,by omega⟩
    refine ⟨hlow,hfits,(configure_isSome_iff hroles hfits hwire).mpr ?_⟩
    omega
  · rintro ⟨hlow,hfits,hsome⟩
    have hthird := (configure_isSome_iff hroles hfits hwire).mp hsome
    exact ⟨hlow,by omega⟩

theorem configuration_sound_script : Sound scriptAdvertiser := by
  have hconf : configure true true 60 15000 = some scriptAdvertiser := by decide
  exact (configuration_sound_iff ⟨by decide,by decide⟩ hconf).mpr ⟨by decide,⟨by decide,by decide⟩,by decide⟩

/-- A lifetime of 65536 seconds is announced as zero, an interval of more than sixteen days
passes for two milliseconds, and an interval of 10 ms may be drawn as forty-nine days. -/
theorem accepted_unsound :
    (configure true true 65536 15000 = some ⟨true,true,65536,15000,0⟩ ∧ ¬Sound ⟨true,true,65536,15000,0⟩) ∧
    (configure true true 1 1431655766 = some ⟨true,true,1,1431655766,0⟩ ∧
      ¬Sound ⟨true,true,1,1431655766,0⟩) ∧
    configure true true 60 10 = some ⟨true,true,60,10,0⟩ ∧ ¬Sound ⟨true,true,60,10,0⟩ := by
  refine ⟨⟨by decide,fun h => ?_⟩,⟨by decide,fun h => ?_⟩,by decide,fun h => ?_⟩
  · exact absurd ((sound_iff ⟨by decide,by decide⟩).mp h).2 (by decide)
  · exact absurd ((sound_iff ⟨by decide,by decide⟩).mp h).2 (by decide)
  · exact absurd ((sound_iff ⟨by decide,by decide⟩).mp h).1 (by decide)

end Configure
end ClickMobileIP.AgentAdvertiser
