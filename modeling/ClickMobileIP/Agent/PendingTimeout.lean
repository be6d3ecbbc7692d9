import ClickMobileIP.Agent.ForeignVisitors
import ClickMobileIP.Support.Marked

/-! # How long a request stays pending

Two pending entries can be equal, so the entry of one request is followed by a mark
that the code does not have: `watch` runs the foreign agent on marked entries and
marks the replies sent for them. Dropping the marks gives the run of the code back.
-/
namespace ClickMobileIP.ForeignAgent
open EventRun EraseSweep Marked
open ForeignAgentReplyProcess (sameIds settled forward push_reply push_other)
open ForeignAgentReqProcess (Admitted remember pendingItem pendingVisit agePending reportPending timeoutReply
  waitedTooLong pendingVisit_keep pendingVisit_erase not_full_of_admitted push_admitted)

section Watch

def markedVisit (alloc : ℕ → Bool) (k : ℕ) (x : Bool × ListItem) :
    Visit (Bool × ListItem) × List (Bool × Emission) :=
  ((pendingVisit alloc k x.2).1.map (fun it => (x.1,it)),
    (pendingVisit alloc k x.2).2.map (fun e => (x.1,e)))

/-- One step of the foreign agent with marks beside its pending entries. -/
def watch (w : AgentBase × List (Bool × ListItem)) (e : Event) :
    Option ((AgentBase × List (Bool × ListItem)) × List (Bool × Emission)) :=
  match step w.1 e with
  | none => none
  | some (t,out) =>
    match e with
    | .request _ _ =>
      some ((t,w.2 ++ (t.registrationReq.drop w.2.length).map (fun it => (false,it))),
        out.map (fun e => (false,e)))
    | .reply _ p =>
      some ((t,if p.IsReply then w.2.eraseP (fun x => sameIds p.reply x.2) else w.2),
        out.map (fun e => (false,e)))
    | .runTimer alloc =>
      (sweepBackward (markedVisit alloc) w.2.length w.2).map (fun r => ((t,r.2.1),r.1))

/-- The marks stand beside exactly the entries of the agent. -/
def Tracks (w : AgentBase × List (Bool × ListItem)) : Prop := w.2.map Prod.snd = w.1.registrationReq

theorem sweepBackward_marked (alloc : ℕ → Bool) (m : List (Bool × ListItem)) :
    sweepBackward (pendingVisit alloc) m.length (m.map Prod.snd) =
      (sweepBackward (markedVisit alloc) m.length m).map
        (fun r => (r.1.map Prod.snd,r.2.1.map Prod.snd,r.2.2)) := by
  refine sweepBackward_map Prod.snd Prod.snd ?_ m.length m
  intro k x
  unfold markedVisit
  rcases pendingVisit alloc k x.2 with ⟨verdict,out⟩
  cases verdict <;> simp [Visit.map,Function.comp_def]

theorem step_request_append {s t : AgentBase} {alloc : Bool} {p : Packet} {out : List Emission}
    (hstep : step s (.request alloc p) = some (t,out)) :
    t.registrationReq = s.registrationReq ++ t.registrationReq.drop s.registrationReq.length := by
  cases stepped_of_step hstep with
  | request _ _ _ _ hpushed =>
    cases hpushed with
    | ignored _ => simp
    | denied _ _ _ => simp
    | relayed _ =>
      simp only [remember]
      split <;> simp

/-- The timer on marked entries does what it does without the marks. -/
theorem runTimer_marked {s : AgentBase} {m : List (Bool × ListItem)} {alloc : ℕ → Bool}
    {tick : ForeignAgentReqProcess.Tick}
    (hm : m.map Prod.snd = s.registrationReq) (htick : ForeignAgentReqProcess.runTimer alloc s = some tick) :
    ∃ out kept done, sweepBackward (markedVisit alloc) m.length m = some (out,kept,done) ∧
      tick.base.registrationReq = kept.map Prod.snd ∧ tick.emitted = out.map Prod.snd := by
  have hsweep := sweepBackward_marked alloc m
  rw [hm] at hsweep
  rw [ForeignAgentReqProcess.runTimer_sweep,← hm,List.length_map,hm,hsweep] at htick
  obtain ⟨r,hr,rfl⟩ := Option.map_eq_some_iff.mp htick
  obtain ⟨⟨out,kept,done⟩,hmarked,rfl⟩ := Option.map_eq_some_iff.mp hr
  exact ⟨out,kept,done,hmarked,rfl,rfl⟩

/-- Every step of the code is followed, and dropping the marks gives it back. -/
theorem watch_step {w : AgentBase × List (Bool × ListItem)} (hw : Tracks w) (e : Event) :
    ∃ v out, watch w e = some (v,out) ∧ Tracks v ∧ step w.1 e = some (v.1,out.map Prod.snd) := by
  obtain ⟨s,m⟩ := w
  have hm : m.map Prod.snd = s.registrationReq := hw
  have hlen : m.length = s.registrationReq.length := by rw [← hm,List.length_map]
  cases e with
  | request alloc p =>
    obtain ⟨t,out,hstep⟩ := step_isSome s (.request alloc p)
    refine ⟨(t,m ++ (t.registrationReq.drop m.length).map (fun it => (false,it))),
      out.map (fun e => (false,e)),by simp only [watch,hstep],?_,by simp [hstep,Function.comp_def]⟩
    simp only [Tracks,List.map_append,List.map_map,Function.comp_def,List.map_id',hm,hlen]
    exact (step_request_append hstep).symm
  | reply uninit p =>
    by_cases hp : p.IsReply
    · have hstep : step s (.reply uninit p) = some (settled uninit s p.reply,[⟨0,forward s p⟩]) :=
        push_reply uninit hp
      refine ⟨(settled uninit s p.reply,m.eraseP (fun x => sameIds p.reply x.2)),
        [(false,⟨0,forward s p⟩)],by simp [watch,hstep,hp],?_,by simp [hstep]⟩
      simp only [Tracks,settled,← hm]
      rw [List.eraseP_map]
      rfl
    · have hstep : step s (.reply uninit p) = some (s,[]) := push_other uninit hp
      exact ⟨(s,m),[],by simp [watch,hstep,hp],hm,by simp [hstep]⟩
  | runTimer alloc =>
    obtain ⟨tick,htick,-⟩ := ForeignAgentReqProcess.runTimer_origin alloc s
    have hstep : step s (.runTimer alloc) = some (tick.base,tick.emitted) := by
      simp only [step,htick,Option.map_some]
    obtain ⟨out,kept,done,hmarked,hbase,hemitted⟩ := runTimer_marked hm htick
    refine ⟨(tick.base,kept),out,?_,hbase.symm,by rw [hstep,hemitted]⟩
    simp only [watch,hstep,hmarked,Option.map_some]

theorem watch_run {w : AgentBase × List (Bool × ListItem)} (hw : Tracks w) (es : List Event) :
    ∃ v out, run watch w es = some (v,out) ∧ Tracks v ∧
      run step w.1 es = some (v.1,out.map Prod.snd) := by
  induction es generalizing w with
  | nil => exact ⟨w,[],rfl,hw,rfl⟩
  | cons e es ih =>
    obtain ⟨v,o,hwatch,hv,hstep⟩ := watch_step hw e
    obtain ⟨u,o',hrun,hu,hrun'⟩ := ih hv
    refine ⟨u,o ++ o',run_cons_eq_some.mpr ⟨v,o,o',hwatch,hrun,rfl⟩,hu,?_⟩
    exact run_cons_eq_some.mpr ⟨v.1,_,_,hstep,hrun',by simp⟩

end Watch

section Outcome

def Event.isTick : Event → Bool
  | .runTimer _ => true
  | _ => false

def ticks (es : List Event) : ℕ := es.countP Event.isTick

def Event.Quiet (id1 id2 : UInt32) : Event → Prop
  | .reply _ p => p.IsReply → ¬(p.reply.id1 = id1 ∧ p.reply.id2 = id2)
  | _ => True

/-- The timer can make the packets it needs. -/
def Event.Allocates : Event → Prop
  | .runTimer alloc => alloc = fun _ => true
  | _ => True

/-- What a pending entry comes to in `n` ticks, with the replies sent on the way. -/
def outcome : ℕ → ListItem → List ListItem × List Emission
  | 0, it => ([it],[])
  | n + 1, it =>
    match agePending it with
    | none => ([],reportPending it)
    | some kept => ((outcome n kept).1,reportPending it ++ (outcome n kept).2)

theorem watch_quiet {w v : AgentBase × List (Bool × ListItem)} {e : Event} {out : List (Bool × Emission)}
    {id1 id2 : UInt32} (he : e.Quiet id1 id2) (hmade : e.Allocates) (hids : ∀ it ∈ chosen w.2, it.id1 = id1 ∧ it.id2 = id2)
    (hstep : watch w e = some (v,out)) :
    chosen v.2 = (if e.isTick then (chosen w.2).filterMap agePending else chosen w.2) ∧
      chosen out = if e.isTick then (chosen w.2).reverse.flatMap reportPending else [] := by
  obtain ⟨s,m⟩ := w
  unfold watch at hstep
  obtain ⟨t,o,hcode⟩ := step_isSome s e
  simp only [hcode] at hstep
  cases e with
  | request alloc p =>
    cases hstep
    simp only [Event.isTick,chosen_append,chosen_const,Bool.false_eq_true,↓reduceIte,List.append_nil,and_self]
  | reply uninit p =>
    cases hstep
    refine ⟨?_,by simp [Event.isTick]⟩
    simp only [Event.isTick,Bool.false_eq_true,↓reduceIte]
    split
    · rename_i hp
      refine chosen_eraseP (fun it hit => ?_)
      obtain ⟨h1,h2⟩ := hids it hit
      refine Bool.eq_false_iff.mpr (fun hsame => he hp ?_)
      rw [sameIds,Bool.and_eq_true,beq_iff_eq,beq_iff_eq] at hsame
      exact ⟨hsame.1.symm.trans h1,hsame.2.symm.trans h2⟩
    · rfl
  | runTimer alloc =>
    have halloc : alloc = fun _ => true := hmade
    subst halloc
    have hkeep : ∀ (k : ℕ) (x y : Bool × ListItem),
        (agePending x.2).map (fun it => (x.1,it)) = some y →
        markedVisit (fun _ => true) k x = (.keep y,(reportPending x.2).map (fun e => (x.1,e))) := by
      intro k x y hy
      obtain ⟨it,hit,rfl⟩ := Option.map_eq_some_iff.mp hy
      rw [markedVisit,pendingVisit_keep k hit]
      rfl
    have herase : ∀ (k : ℕ) (x : Bool × ListItem), (agePending x.2).map (fun it => (x.1,it)) = none →
        markedVisit (fun _ => true) k x = (.erase,(reportPending x.2).map (fun e => (x.1,e))) := by
      intro k x hx
      rw [markedVisit,pendingVisit_erase k (Option.map_eq_none_iff.mp hx)]
      rfl
    simp only [sweepBackward_eq hkeep herase,Option.map_some,Option.some.injEq,Prod.mk.injEq] at hstep
    obtain ⟨rfl,rfl⟩ := hstep
    simp only [Event.isTick,↓reduceIte]
    exact ⟨chosen_filterMap agePending m,by rw [chosen_flatMap,chosen_reverse]⟩

theorem agePending_ids {a b : ListItem} (h : agePending a = some b) : b.id1 = a.id1 ∧ b.id2 = a.id2 := by
  unfold agePending at h
  split at h
  · cases h
  · cases h
    exact ⟨rfl,rfl⟩

theorem ticks_cons (e : Event) (es : List Event) :
    ticks (e :: es) = ticks es + if e.isTick then 1 else 0 := List.countP_cons

/-- Once the marked entry is gone it stays gone and nothing more is sent for it. -/
theorem run_watch_gone {id1 id2 : UInt32} (es : List Event) (hes : ∀ e ∈ es, e.Quiet id1 id2)
    (hmade : ∀ e ∈ es, e.Allocates)
    {w v : AgentBase × List (Bool × ListItem)} {out : List (Bool × Emission)} (hw : chosen w.2 = [])
    (hr : run watch w es = some (v,out)) : chosen v.2 = [] ∧ chosen out = [] := by
  induction es generalizing w out with
  | nil =>
    cases hr
    exact ⟨hw,rfl⟩
  | cons e es ih =>
    obtain ⟨u,o,o',hstep,hrest,rfl⟩ := run_cons_eq_some.mp hr
    obtain ⟨hquiet,hquiets⟩ := List.forall_mem_cons.mp hes
    obtain ⟨hfirst,hrests⟩ := List.forall_mem_cons.mp hmade
    obtain ⟨hu,ho⟩ := watch_quiet hquiet hfirst (by simp [hw]) hstep
    simp only [hw,List.filterMap_nil,List.reverse_nil,List.flatMap_nil,ite_self] at hu ho
    obtain ⟨hv,ho'⟩ := ih hquiets hrests hu hrest
    exact ⟨hv,by rw [chosen_append,ho,ho']; rfl⟩

theorem run_watch_outcome {id1 id2 : UInt32} (es : List Event) (hes : ∀ e ∈ es, e.Quiet id1 id2)
    (hmade : ∀ e ∈ es, e.Allocates)
    {w v : AgentBase × List (Bool × ListItem)} {out : List (Bool × Emission)} {it : ListItem}
    (hit : it.id1 = id1 ∧ it.id2 = id2) (hw : chosen w.2 = [it]) (hr : run watch w es = some (v,out)) :
    chosen v.2 = (outcome (ticks es) it).1 ∧ chosen out = (outcome (ticks es) it).2 := by
  induction es generalizing w out it with
  | nil =>
    cases hr
    exact ⟨hw,rfl⟩
  | cons e es ih =>
    obtain ⟨u,o,o',hstep,hrest,rfl⟩ := run_cons_eq_some.mp hr
    obtain ⟨hquiet,hlater⟩ := List.forall_mem_cons.mp hes
    obtain ⟨hfirst,hrests⟩ := List.forall_mem_cons.mp hmade
    obtain ⟨hu,ho⟩ := watch_quiet hquiet hfirst (by simpa [hw] using hit) hstep
    rw [ticks_cons,chosen_append,ho]
    cases htick : e.isTick with
    | false =>
      simp only [htick,Bool.false_eq_true,↓reduceIte,hw] at hu
      obtain ⟨hv,ho'⟩ := ih hlater hrests hit hu hrest
      simp only [Bool.false_eq_true,↓reduceIte,Nat.add_zero,List.nil_append]
      exact ⟨hv,ho'⟩
    | true =>
      simp only [htick,↓reduceIte,hw] at hu
      simp only [↓reduceIte,hw,outcome]
      cases hage : agePending it with
      | none =>
        simp only [List.filterMap_cons,hage,List.filterMap_nil] at hu
        obtain ⟨hv,ho'⟩ := run_watch_gone es hlater hrests hu hrest
        exact ⟨hv,by simp [ho']⟩
      | some kept =>
        simp only [List.filterMap_cons,hage,List.filterMap_nil] at hu
        have hkept : kept.id1 = id1 ∧ kept.id2 = id2 := by
          rw [(agePending_ids hage).1,(agePending_ids hage).2]
          exact hit
        obtain ⟨hv,ho'⟩ := ih hlater hrests hkept hu hrest
        exact ⟨hv,by simp [ho']⟩

end Outcome
section Lifetimes

def agedItem (n : ℕ) (it : ListItem) : ListItem := { it with lifetimeRem := aged n it.lifetimeReq }

variable {it : ListItem} {L : UInt16}

theorem agePending_agedItem (n : ℕ) (it : ListItem) : agePending (agedItem n it) =
    if aged (n + 1) it.lifetimeReq = 0 ∨ waitedTooLong (agedItem (n + 1) it) then none
    else some (agedItem (n + 1) it) := by
  unfold agePending agedItem
  rw [aged_succ]

theorem reportPending_agedItem (n : ℕ) (it : ListItem) : reportPending (agedItem n it) =
    if aged (n + 1) it.lifetimeReq ≠ 0 ∧ waitedTooLong (agedItem (n + 1) it) then
      [⟨0,timeoutReply (agedItem (n + 1) it)⟩]
    else [] := by
  unfold reportPending agedItem
  rw [aged_succ]

/-- In the first seven ticks the waiting time shows seven seconds only at the seventh,
and only when the low byte of the lifetime can pay for them. -/
theorem waitedTooLong_agedItem {n : ℕ} (hit : it.lifetimeReq = htons L) (hn : n ≤ 7) :
    waitedTooLong (agedItem n it) = true ↔ n = 7 ∧ 7 ≤ L.toNat % 256 := by
  have hL := L.toNat_lt
  have hseven : (htons 7).toNat = 1792 := rfl
  simp only [waitedTooLong,agedItem,hit,aged_toNat,htons_toNat,hseven,decide_eq_true_eq]
  have hlow : L.toNat % 256 < 256 := Nat.mod_lt _ (by omega)
  have hhigh : L.toNat / 256 < 256 := by omega
  omega

theorem outcome_stays {k : ℕ}
    (hstay : ∀ j < k, aged (j + 1) it.lifetimeReq ≠ 0 ∧ ¬waitedTooLong (agedItem (j + 1) it) = true)
    (n : ℕ) : outcome (k + n) (agedItem 0 it) = outcome n (agedItem k it) := by
  induction k generalizing n with
  | zero => rw [Nat.zero_add]
  | succ k ih =>
    obtain ⟨hzero,hwait⟩ := hstay k (Nat.lt_succ_self k)
    have hage : agePending (agedItem k it) = some (agedItem (k + 1) it) := by
      rw [agePending_agedItem,if_neg (not_or.mpr ⟨hzero,hwait⟩)]
    have hreport : reportPending (agedItem k it) = [] := by
      rw [reportPending_agedItem,if_neg (fun h => hwait h.2)]
    rw [Nat.succ_add_eq_add_succ,ih (fun j hj => hstay j (by omega)) (n + 1),outcome]
    simp only [hage,hreport,List.nil_append]

theorem outcome_leaves {k : ℕ} (n : ℕ)
    (hgone : aged (k + 1) it.lifetimeReq = 0 ∨ waitedTooLong (agedItem (k + 1) it) = true) :
    outcome (n + 1) (agedItem k it) = ([],reportPending (agedItem k it)) := by
  have hage : agePending (agedItem k it) = none := by rw [agePending_agedItem,if_pos hgone]
  simp only [outcome,hage]

def GoodLifetime (L : ℕ) : Prop := L ≠ 0 ∧ (L < 256 ∨ 7 ≤ L % 256)

theorem outcome_short (hit : it.lifetimeReq = htons L) (hpos : L.toNat ≠ 0) (hshort : L.toNat ≤ 7)
    {n : ℕ} (hn : 7 ≤ n) : outcome n (agedItem 0 it) = ([],[]) := by
  have hsplit : n = (L.toNat - 1) + ((n - L.toNat) + 1) := by omega
  have hzero : aged (L.toNat - 1 + 1) it.lifetimeReq = 0 := by
    rw [hit,aged_htons_eq_zero]
    omega
  rw [hsplit,outcome_stays,outcome_leaves _ (Or.inl hzero),reportPending_agedItem,if_neg (fun h => h.1 hzero)]
  intro j hj
  constructor
  · rw [hit,ne_eq,aged_htons_eq_zero]
    omega
  · rw [waitedTooLong_agedItem hit (by omega)]
    omega

theorem outcome_long (hit : it.lifetimeReq = htons L) (hlong : 7 < L.toNat) (hgood : GoodLifetime L.toNat)
    {n : ℕ} (hn : 7 ≤ n) :
    outcome n (agedItem 0 it) = ([],[⟨0,timeoutReply (agedItem 7 it)⟩]) := by
  have hsplit : n = 6 + ((n - 7) + 1) := by omega
  have hwait : waitedTooLong (agedItem (6 + 1) it) = true := by
    rw [waitedTooLong_agedItem hit (by omega)]
    have := hgood.2
    omega
  have halive : ∀ j < 7, aged (j + 1) it.lifetimeReq ≠ 0 := by
    intro j hj
    rw [hit,ne_eq,aged_htons_eq_zero]
    omega
  rw [hsplit,outcome_stays,outcome_leaves _ (Or.inr hwait),reportPending_agedItem,
    if_pos ⟨halive 6 (by omega),hwait⟩]
  intro j hj
  refine ⟨halive j (by omega),?_⟩
  rw [waitedTooLong_agedItem hit (by omega)]
  omega

theorem outcome_lingers (hit : it.lifetimeReq = htons L) (hbad : ¬GoodLifetime L.toNat) :
    outcome 7 (agedItem 0 it) = ([agedItem 7 it],[]) := by
  unfold GoodLifetime at hbad
  refine outcome_stays (k := 7) ?_ 0
  intro j hj
  constructor
  · rw [hit,ne_eq,aged_htons_eq_zero]
    omega
  · rw [waitedTooLong_agedItem hit (by omega)]
    omega

end Lifetimes

section Timeout
variable {s : AgentBase} {p : Packet}

def Reachable (s : AgentBase) : Prop :=
  ∃ publicAddr privateAddr lifetimeReg es out,
    run step (AgentBase.configure publicAddr privateAddr lifetimeReg) es = some (s,out)

theorem step_room {s t : AgentBase} {e : Event} {out : List Emission}
    (hs : (s.registrationReq.length : ℤ) ≤ s.maxRequests) (hstep : step s e = some (t,out)) :
    (t.registrationReq.length : ℤ) ≤ t.maxRequests := by
  cases stepped_of_step hstep with
  | request alloc p t out hpushed =>
    cases hpushed with
    | ignored _ => exact hs
    | denied _ _ _ => exact hs
    | relayed _ =>
      simp only [remember]
      split
      · rw [List.length_append,List.length_singleton]
        push_cast
        omega
      · exact hs
  | reply uninit p hp =>
    have hlen := List.length_eraseP_le (p := sameIds p.reply) (l := s.registrationReq)
    simp only [settled]
    omega
  | ignored uninit p hp => exact hs
  | ticked alloc pending visitors out hlen horigin hvisitors =>
    dsimp only
    omega

theorem Reachable.room (h : Reachable s) : (s.registrationReq.length : ℤ) ≤ s.maxRequests := by
  obtain ⟨publicAddr,privateAddr,lifetimeReg,es,out,hr⟩ := h
  exact run_preserves (P := fun s => (s.registrationReq.length : ℤ) ≤ s.maxRequests)
    (fun _ _ _ _ => step_room) (by simp [AgentBase.configure]) hr

theorem remember_admitted (hs : Reachable s) (hp : Admitted s p) :
    remember s p = { s with registrationReq := s.registrationReq ++ [pendingItem p] } := by
  have hroom : (s.registrationReq.length : ℤ) < s.maxRequests :=
    lt_of_le_of_ne hs.room (not_full_of_admitted hp)
  rw [remember,if_pos hroom]

/-- The agent that has just admitted the request, with the mark on its new entry. -/
def watchFrom (s : AgentBase) (p : Packet) : AgentBase × List (Bool × ListItem) :=
  (remember s p,s.registrationReq.map (fun it => (false,it)) ++ [(true,pendingItem p)])

/-- A code 78 reply to the request: its ids and addresses, and the ports swapped. -/
def TimesOut (p : Packet) (e : Emission) : Prop :=
  e.port = 0 ∧ e.packet.IsReply ∧ e.packet.reply.code = 78 ∧
    e.packet.reply.id1 = p.request.id1 ∧ e.packet.reply.id2 = p.request.id2 ∧
    e.packet.reply.homeAddr = p.request.homeAddr ∧ e.packet.reply.homeAgent = p.request.homeAgent ∧
    e.packet.udp.uhSport = p.udp.uhDport ∧ e.packet.udp.uhDport = p.udp.uhSport

theorem timesOut_agedItem (n : ℕ) (p : Packet) :
    TimesOut p ⟨0,timeoutReply (agedItem n (pendingItem p))⟩ := by
  simp [TimesOut,timeoutReply,agedItem,pendingItem,Packet.IsReply,Packet.length,sealUdp]

/-- In every run that follows the admission, in which no reply with the ids of the request
arrives and the timer can make its packets, seven ticks are enough for its entry to leave, and one timeout reply
is sent for it if it asked for more than seven seconds, and none otherwise. -/
def LeavesInTime (s : AgentBase) (p : Packet) : Prop :=
  ∀ es, (∀ e ∈ es, e.Quiet p.request.id1 p.request.id2) → (∀ e ∈ es, e.Allocates) → 7 ≤ ticks es →
    ∃ t m out, run watch (watchFrom s p) es = some ((t,m),out) ∧
      run step (ForeignAgentReqProcess.push true s p).1 es = some (t,out.map Prod.snd) ∧
      m.map Prod.snd = t.registrationReq ∧ chosen m = [] ∧
      if 7 < (ntohs p.request.lifetime).toNat then ∃ e, chosen out = [e] ∧ TimesOut p e
      else chosen out = []

theorem run_watchFrom (hs : Reachable s) (hp : Admitted s p) (es : List Event)
    (hes : ∀ e ∈ es, e.Quiet p.request.id1 p.request.id2) (hmade : ∀ e ∈ es, e.Allocates) :
    ∃ t m out, run watch (watchFrom s p) es = some ((t,m),out) ∧
      run step (ForeignAgentReqProcess.push true s p).1 es = some (t,out.map Prod.snd) ∧
      m.map Prod.snd = t.registrationReq ∧
      chosen m = (outcome (ticks es) (agedItem 0 (pendingItem p))).1 ∧
      chosen out = (outcome (ticks es) (agedItem 0 (pendingItem p))).2 := by
  have hpush : (ForeignAgentReqProcess.push true s p).1 = (watchFrom s p).1 := by
    rw [push_admitted true hp]
    rfl
  have htracks : Tracks (watchFrom s p) := by
    simp [Tracks,watchFrom,remember_admitted hs hp,Function.comp_def]
  have hchosen : chosen (watchFrom s p).2 = [agedItem 0 (pendingItem p)] := by
    simp only [watchFrom,chosen_append,chosen_const,Bool.false_eq_true,↓reduceIte,List.nil_append]
    rfl
  have hids : (agedItem 0 (pendingItem p)).id1 = p.request.id1 ∧
      (agedItem 0 (pendingItem p)).id2 = p.request.id2 := ⟨rfl,rfl⟩
  obtain ⟨⟨t,m⟩,out,hwatch,hv,hrun⟩ := watch_run htracks es
  obtain ⟨hm,hout⟩ := run_watch_outcome es hes hmade hids hchosen hwatch
  exact ⟨t,m,out,hwatch,by rw [hpush]; exact hrun,hv,hm,hout⟩

theorem lifetime_pendingItem (p : Packet) :
    (pendingItem p).lifetimeReq = htons (ntohs p.request.lifetime) := (htons_ntohs _).symm

theorem goodLifetime_of_leavesInTime (hs : Reachable s) (hp : Admitted s p) (h : LeavesInTime s p) :
    GoodLifetime (ntohs p.request.lifetime).toNat := by
  by_contra hbad
  have hquiet : ∀ e ∈ List.replicate 7 (Event.runTimer (fun _ => true)),
      e.Quiet p.request.id1 p.request.id2 := fun e he => by rw [(List.mem_replicate.mp he).2]; exact trivial
  have hmade : ∀ e ∈ List.replicate 7 (Event.runTimer (fun _ => true)), e.Allocates := fun e he => by
    rw [(List.mem_replicate.mp he).2]
    exact rfl
  have hseven : ticks (List.replicate 7 (.runTimer (fun _ => true))) = 7 := rfl
  obtain ⟨t,m,out,hrun,-,-,hgone,-⟩ := h _ hquiet hmade hseven.ge
  obtain ⟨t',m',out',hrun',-,-,hmark,-⟩ := run_watchFrom hs hp _ hquiet hmade
  rw [hrun] at hrun'
  cases hrun'
  rw [hgone,hseven,outcome_lingers (lifetime_pendingItem p) hbad] at hmark
  cases hmark

theorem leavesInTime_iff (hs : Reachable s) (hp : Admitted s p) :
    LeavesInTime s p ↔ GoodLifetime (ntohs p.request.lifetime).toNat := by
  refine ⟨goodLifetime_of_leavesInTime hs hp,fun hgood es hes hmade hticks => ?_⟩
  obtain ⟨t,m,out,hrun,hcode,htracks,hmark,hout⟩ := run_watchFrom hs hp es hes hmade
  refine ⟨t,m,out,hrun,hcode,htracks,?_⟩
  by_cases hlong : 7 < (ntohs p.request.lifetime).toNat
  · rw [outcome_long (lifetime_pendingItem p) hlong hgood hticks] at hmark hout
    rw [if_pos hlong]
    exact ⟨hmark,_,hout,timesOut_agedItem 7 p⟩
  · rw [outcome_short (lifetime_pendingItem p) hgood.1 (by omega) hticks] at hmark hout
    rw [if_neg hlong]
    exact ⟨hmark,hout⟩

theorem leavesInTime_sample : LeavesInTime (AgentBase.configure 1 2 25) (visitRequest 25 9 5 3 4) := by
  refine (leavesInTime_iff ⟨1,2,25,[],[],rfl⟩ (by decide +kernel)).mpr ?_
  unfold GoodLifetime
  decide +kernel

/-- An agent that grants 300 seconds keeps a request for 256 seconds in its slot. -/
theorem request_of_256_seconds_lingers :
    Admitted (AgentBase.configure 1 2 300) (visitRequest 256 9 5 3 4) ∧
      ¬LeavesInTime (AgentBase.configure 1 2 300) (visitRequest 256 9 5 3 4) := by
  have hp : Admitted (AgentBase.configure 1 2 300) (visitRequest 256 9 5 3 4) := by decide +kernel
  refine ⟨hp,fun h => ?_⟩
  have hgood := goodLifetime_of_leavesInTime ⟨1,2,300,[],[],rfl⟩ hp h
  unfold GoodLifetime at hgood
  exact absurd hgood (by decide +kernel)

end Timeout
end ClickMobileIP.ForeignAgent
