import ClickMobileIP.Agent.AgentBase
import ClickMobileIP.Support.EventRun
import Mathlib.Data.List.Nodup

/-! # The switches between the hosts

`glue.click` joins the interfaces of each network by a `ListenEtherSwitch`, a learning switch
with one more output on which every frame is copied. The table that it learns is a cache: it
forgets entries that have timed out. The abstract switch keeps a log of everything it has seen
and looks up the last frame of a station there.
-/
namespace ClickMobileIP
open EventRun

/-- The lowest bit of the first byte. -/
def EtherAddress.isGroup (a : EtherAddress) : Bool := a.getLsbD 40

/-- What a switch reads of a frame; time stamps are counted in nanoseconds. -/
structure EtherFrame where
  shost : EtherAddress
  dhost : EtherAddress
  stamp : ℤ
  deriving DecidableEq, Repr

structure EtherSwitch.AddrInfo where
  port : ℕ
  stamp : ℤ
  deriving DecidableEq, Repr

structure EtherSwitch where
  table : HashMap EtherAddress EtherSwitch.AddrInfo := fun _ => none
  timeout : ℕ := 300

namespace EtherSwitch

def deadline (timeout : ℕ) (stamp : ℤ) : ℤ := stamp + 1000000000 * timeout

/-- Learn the source, find the port of the destination; `none` is a broadcast. -/
def outport (s : EtherSwitch) (source : ℕ) (e : EtherFrame) : EtherSwitch × Option ℕ :=
  if s.timeout = 0 then (s,none)
  else
    let table := s.table.insert e.shost ⟨source,e.stamp⟩
    if EtherAddress.isGroup e.dhost = true then ({ s with table := table },none)
    else
      match table.findPair e.dhost with
      | none => ({ s with table := table },none)
      | some info =>
        if e.stamp < deadline s.timeout info.stamp then ({ s with table := table },some info.port)
        else ({ s with table := table.erase e.dhost },none)

/-- From the last output to the first. -/
def broadcast (noutputs source : ℕ) : List ℕ := (List.range noutputs).reverse.filter (fun i => i ≠ source)

end EtherSwitch

namespace ListenEtherSwitch
open EtherSwitch

def copies (noutputs source : ℕ) : Option ℕ → List ℕ
  | none => broadcast noutputs source
  | some port => if port = source then [noutputs - 1] else [noutputs - 1,port]

def push (noutputs : ℕ) (s : EtherSwitch) (source : ℕ) (e : EtherFrame) : EtherSwitch × List ℕ :=
  ((s.outport source e).1,copies noutputs source (s.outport source e).2)

structure Arrival where
  source : ℕ
  frame : EtherFrame
  deriving DecidableEq, Repr

/-- The output of a step is the arrival with the outputs that get a copy. -/
def step (noutputs : ℕ) (s : EtherSwitch) (x : Arrival) : Option (EtherSwitch × List (Arrival × List ℕ)) :=
  some ((push noutputs s x.source x.frame).1,[(x,(push noutputs s x.source x.frame).2)])

/-- What one frame does to the table, and where its destination is looked up. -/
theorem outport_cases (s : EtherSwitch) (source : ℕ) (e : EtherFrame) :
    (s.timeout = 0 ∧ s.outport source e = (s,none)) ∨
    (s.timeout ≠ 0 ∧ EtherAddress.isGroup e.dhost = true ∧
      s.outport source e = ({ s with table := s.table.insert e.shost ⟨source,e.stamp⟩ },none)) ∨
    (s.timeout ≠ 0 ∧ EtherAddress.isGroup e.dhost = false ∧ s.table.insert e.shost ⟨source,e.stamp⟩ e.dhost = none ∧
      s.outport source e = ({ s with table := s.table.insert e.shost ⟨source,e.stamp⟩ },none)) ∨
    ∃ info, s.timeout ≠ 0 ∧ EtherAddress.isGroup e.dhost = false ∧
      s.table.insert e.shost ⟨source,e.stamp⟩ e.dhost = some info ∧
      (e.stamp < deadline s.timeout info.stamp ∧
        s.outport source e = ({ s with table := s.table.insert e.shost ⟨source,e.stamp⟩ },some info.port) ∨
      deadline s.timeout info.stamp ≤ e.stamp ∧
        s.outport source e = ({ s with table := (s.table.insert e.shost ⟨source,e.stamp⟩).erase e.dhost },none)) := by
  unfold outport
  by_cases htimeout : s.timeout = 0
  · exact .inl ⟨htimeout,if_pos htimeout⟩
  rw [if_neg htimeout]
  dsimp only
  by_cases hgroup : EtherAddress.isGroup e.dhost = true
  · exact .inr (.inl ⟨htimeout,hgroup,if_pos hgroup⟩)
  rw [if_neg hgroup]
  have hgroup' := Bool.eq_false_iff.mpr hgroup
  cases hfind : s.table.insert e.shost ⟨source,e.stamp⟩ e.dhost with
  | none => exact .inr (.inr (.inl ⟨htimeout,hgroup',rfl,by rw [HashMap.findPair,hfind]⟩))
  | some info =>
    refine .inr (.inr (.inr ⟨info,htimeout,hgroup',rfl,?_⟩))
    rw [HashMap.findPair,hfind]
    dsimp only
    by_cases hfresh : e.stamp < deadline s.timeout info.stamp
    · exact .inl ⟨hfresh,if_pos hfresh⟩
    · exact .inr ⟨Int.not_lt.mp hfresh,if_neg hfresh⟩

theorem timeout_outport (s : EtherSwitch) (source : ℕ) (e : EtherFrame) : (s.outport source e).1.timeout = s.timeout := by
  rcases outport_cases s source e with ⟨-,h⟩ | ⟨-,-,h⟩ | ⟨-,-,-,h⟩ | ⟨_,-,-,-,⟨-,h⟩ | ⟨-,h⟩⟩ <;> rw [h]

section Delivery
variable {noutputs source : ℕ}

theorem mem_broadcast {i : ℕ} : i ∈ broadcast noutputs source ↔ i < noutputs ∧ i ≠ source := by
  simp [broadcast]

theorem nodup_broadcast : (broadcast noutputs source).Nodup :=
  (List.nodup_reverse.mpr List.nodup_range).filter _

/-- Each output gets a frame at most once, the listening one always, the one that it came from never; a frame for all
stations reaches every other output, a frame for one station the output of that station. -/
structure Delivers (noutputs : ℕ) (portOf : EtherAddress → ℕ) (x : Arrival) (outs : List ℕ) : Prop where
  once : outs.Nodup
  outputs : ∀ i ∈ outs, i < noutputs ∧ i ≠ x.source
  listens : noutputs - 1 ∈ outs
  group : EtherAddress.isGroup x.frame.dhost = true → ∀ i < noutputs, i ≠ x.source → i ∈ outs
  station : portOf x.frame.dhost + 1 < noutputs → portOf x.frame.dhost ≠ x.source → portOf x.frame.dhost ∈ outs

def Located (noutputs : ℕ) (portOf : EtherAddress → ℕ) (s : EtherSwitch) : Prop :=
  ∀ a info, s.table a = some info → info.port = portOf a ∧ info.port + 1 < noutputs

theorem located_insert {portOf : EtherAddress → ℕ} {s : EtherSwitch} {x : Arrival} (h : Located noutputs portOf s)
    (hsource : x.source = portOf x.frame.shost ∧ x.source + 1 < noutputs) {a : EtherAddress} {info : AddrInfo}
    (ha : s.table.insert x.frame.shost ⟨x.source,x.frame.stamp⟩ a = some info) :
    info.port = portOf a ∧ info.port + 1 < noutputs := by
  by_cases hshost : a = x.frame.shost
  · rw [hshost,HashMap.insert_self] at ha
    rw [← Option.some.inj ha,hshost]
    exact hsource
  · rw [HashMap.insert,Function.update_of_ne hshost] at ha
    exact h a info ha

theorem delivers_broadcast {portOf : EtherAddress → ℕ} {x : Arrival} (hsource : x.source + 1 < noutputs) :
    Delivers noutputs portOf x (broadcast noutputs x.source) where
  once := nodup_broadcast
  outputs := fun i hi => mem_broadcast.mp hi
  listens := mem_broadcast.mpr (by omega)
  group := fun _ i hi hne => mem_broadcast.mpr ⟨hi,hne⟩
  station := fun hport hne => mem_broadcast.mpr ⟨by omega,hne⟩

theorem delivers_known {portOf : EtherAddress → ℕ} {x : Arrival} {port : ℕ} (hsource : x.source + 1 < noutputs)
    (hgroup : EtherAddress.isGroup x.frame.dhost = false) (hport : port = portOf x.frame.dhost) (hlt : port + 1 < noutputs) :
    Delivers noutputs portOf x (copies noutputs x.source (some port)) := by
  have hcopies : copies noutputs x.source (some port) = if port = x.source then [noutputs - 1] else [noutputs - 1,port] := rfl
  rw [hcopies]
  by_cases hback : port = x.source
  · rw [if_pos hback]
    refine ⟨List.nodup_singleton _,?_,List.mem_singleton_self _,?_,fun _ hne => absurd (hport.symm.trans hback) hne⟩
    · intro i hi
      rw [List.mem_singleton.mp hi]
      omega
    · rw [hgroup]
      exact fun h => absurd h (by decide)
  · rw [if_neg hback]
    refine ⟨?_,?_,List.mem_cons_self,?_,fun _ _ => hport ▸ List.mem_cons_of_mem _ (List.mem_singleton_self _)⟩
    · have hne : noutputs - 1 ≠ port := by omega
      simp [hne]
    · intro i hi
      rcases List.mem_cons.mp hi with rfl | hi
      · omega
      · rw [List.mem_singleton.mp hi]
        exact ⟨by omega,hback⟩
    · rw [hgroup]
      exact fun h => absurd h (by decide)

theorem push_delivers {portOf : EtherAddress → ℕ} {s : EtherSwitch} {x : Arrival} (h : Located noutputs portOf s)
    (hsource : x.source = portOf x.frame.shost ∧ x.source + 1 < noutputs) :
    Located noutputs portOf (push noutputs s x.source x.frame).1 ∧
      Delivers noutputs portOf x (push noutputs s x.source x.frame).2 := by
  have hinsert : ∀ a info, s.table.insert x.frame.shost ⟨x.source,x.frame.stamp⟩ a = some info →
      info.port = portOf a ∧ info.port + 1 < noutputs := fun _ _ ha => located_insert h hsource ha
  unfold push
  rcases outport_cases s x.source x.frame with
    ⟨-,heq⟩ | ⟨-,-,heq⟩ | ⟨-,-,-,heq⟩ | ⟨info,-,hgroup,hfind,⟨-,heq⟩ | ⟨-,heq⟩⟩
  · rw [heq]
    exact ⟨h,delivers_broadcast hsource.2⟩
  · rw [heq]
    exact ⟨hinsert,delivers_broadcast hsource.2⟩
  · rw [heq]
    exact ⟨hinsert,delivers_broadcast hsource.2⟩
  · rw [heq]
    obtain ⟨hport,hlt⟩ := hinsert _ _ hfind
    exact ⟨hinsert,delivers_known hsource.2 hgroup hport hlt⟩
  · rw [heq]
    refine ⟨fun a info ha => ?_,delivers_broadcast hsource.2⟩
    have herased : Function.update (s.table.insert x.frame.shost ⟨x.source,x.frame.stamp⟩) x.frame.dhost none a = some info := ha
    by_cases hdhost : a = x.frame.dhost
    · rw [hdhost,Function.update_self] at herased
      cases herased
    · rw [Function.update_of_ne hdhost] at herased
      exact hinsert a info herased

theorem run_located {portOf : EtherAddress → ℕ} {xs : List Arrival}
    (hstay : ∀ x ∈ xs, x.source = portOf x.frame.shost ∧ x.source + 1 < noutputs) {s : EtherSwitch}
    (hs : Located noutputs portOf s) :
    ∃ t out, run (step noutputs) s xs = some (t,out) ∧ out.map Prod.fst = xs ∧
      ∀ y ∈ out, Delivers noutputs portOf y.1 y.2 := by
  induction xs generalizing s with
  | nil => exact ⟨s,[],rfl,rfl,fun y hy => absurd hy List.not_mem_nil⟩
  | cons x xs ih =>
    obtain ⟨hlocated,hdelivers⟩ := push_delivers hs (hstay x List.mem_cons_self)
    obtain ⟨t,out,hrun,hfst,hevery⟩ := ih (fun y hy => hstay y (List.mem_cons_of_mem x hy)) hlocated
    refine ⟨t,_,run_cons_eq_some.mpr ⟨_,_,out,rfl,hrun,rfl⟩,congrArg (x :: ·) hfst,fun y hy => ?_⟩
    rcases List.mem_cons.mp hy with rfl | hy
    · exact hdelivers
    · exact hevery y hy

/-- For stations that stay where they are, over every run of frames, with whatever time stamps and time-out: no
station misses a frame for it or gets it twice, no frame goes back where it came from, and the listening output gets
a copy of each. -/
theorem run_delivers {portOf : EtherAddress → ℕ} (timeout : ℕ) {xs : List Arrival}
    (hstay : ∀ x ∈ xs, x.source = portOf x.frame.shost ∧ x.source + 1 < noutputs) :
    ∃ s out, run (step noutputs) { timeout := timeout } xs = some (s,out) ∧ out.map Prod.fst = xs ∧
      ∀ y ∈ out, Delivers noutputs portOf y.1 y.2 := by
  refine run_located hstay (fun a info ha => ?_)
  have hempty : (none : Option AddrInfo) = some info := ha
  cases hempty

/-- A frame for a station not heard before and the answer to it. -/
theorem run_delivers_sample :
    ∃ s out, run (step 3) { timeout := 300 } [⟨0,⟨1,2,0⟩⟩,⟨1,⟨2,1,5⟩⟩] = some (s,out) ∧
      out.map Prod.fst = [⟨0,⟨1,2,0⟩⟩,⟨1,⟨2,1,5⟩⟩] ∧
      ∀ y ∈ out, Delivers 3 (fun a => if a = 1 then 0 else 1) y.1 y.2 :=
  run_delivers 300 (by decide)

end Delivery

section Log
variable {noutputs : ℕ} {log : List Arrival} {x : Arrival}

/-- The last frame of a station, newest first. -/
def heardFrom (log : List Arrival) (a : EtherAddress) : Option Arrival := log.find? (fun x => x.frame.shost == a)

/-- Where the station that a frame is for was heard last, unless that is too long ago. -/
def remembered (timeout : ℕ) (log : List Arrival) (x : Arrival) : Option ℕ :=
  if timeout = 0 ∨ EtherAddress.isGroup x.frame.dhost = true then none
  else
    match heardFrom (x :: log) x.frame.dhost with
    | none => none
    | some y => if x.frame.stamp < deadline timeout y.frame.stamp then some y.source else none

/-- A switch that forgets nothing. -/
def recordStep (noutputs timeout : ℕ) (log : List Arrival) (x : Arrival) :
    Option (List Arrival × List (Arrival × List ℕ)) :=
  some (x :: log,[(x,copies noutputs x.source (remembered timeout log x))])

/-- An entry is the last frame of its station; the last frame of a station that was forgotten has timed out
by `now`. -/
structure Agrees (s : EtherSwitch) (log : List Arrival) (now : ℤ) : Prop where
  known : ∀ a info, s.timeout ≠ 0 → s.table a = some info →
    ∃ y, heardFrom log a = some y ∧ info = ⟨y.source,y.frame.stamp⟩
  forgotten : ∀ a y, s.timeout ≠ 0 → s.table a = none → heardFrom log a = some y →
    deadline s.timeout y.frame.stamp ≤ now

theorem heardFrom_cons (x : Arrival) (log : List Arrival) (a : EtherAddress) :
    heardFrom (x :: log) a = if x.frame.shost = a then some x else heardFrom log a := by
  by_cases h : x.frame.shost = a
  · simp [heardFrom,h]
  · have hne : (x.frame.shost == a) = false := beq_eq_false_iff_ne.mpr h
    simp only [heardFrom,List.find?_cons,hne,h,↓reduceIte]

theorem Agrees.later {s : EtherSwitch} {now later : ℤ} (h : Agrees s log now) (hle : now ≤ later) : Agrees s log later where
  known := h.known
  forgotten := fun a y htimeout hnone hheard => le_trans (h.forgotten a y htimeout hnone hheard) hle

theorem Agrees.learn {s : EtherSwitch} {now : ℤ} (h : Agrees s log now) (x : Arrival) :
    Agrees { s with table := s.table.insert x.frame.shost ⟨x.source,x.frame.stamp⟩ } (x :: log) now where
  known := by
    intro a info htimeout ha
    rw [heardFrom_cons]
    by_cases hshost : x.frame.shost = a
    · subst hshost
      rw [if_pos rfl]
      have hinsert : some (AddrInfo.mk x.source x.frame.stamp) = some info := (HashMap.insert_self ..).symm.trans ha
      exact ⟨x,rfl,(Option.some.inj hinsert).symm⟩
    · rw [if_neg hshost]
      exact h.known a info htimeout ((HashMap.insert_of_ne _ _ (Ne.symm hshost)).symm.trans ha)
  forgotten := by
    intro a y htimeout ha hheard
    rw [heardFrom_cons] at hheard
    by_cases hshost : x.frame.shost = a
    · subst hshost
      have hinsert : some (AddrInfo.mk x.source x.frame.stamp) = none := (HashMap.insert_self ..).symm.trans ha
      cases hinsert
    · rw [if_neg hshost] at hheard
      exact h.forgotten a y htimeout ((HashMap.insert_of_ne _ _ (Ne.symm hshost)).symm.trans ha) hheard

theorem Agrees.forget {s : EtherSwitch} {now : ℤ} (h : Agrees s log now) {a : EtherAddress} {info : AddrInfo}
    (hfind : s.table a = some info) (hold : deadline s.timeout info.stamp ≤ now) :
    Agrees { s with table := s.table.erase a } log now where
  known := by
    intro b other htimeout hb
    by_cases hab : b = a
    · subst hab
      have herase : none = some other := (HashMap.erase_self ..).symm.trans hb
      cases herase
    · exact h.known b other htimeout ((HashMap.erase_of_ne _ hab).symm.trans hb)
  forgotten := by
    intro b y htimeout hb hheard
    by_cases hab : b = a
    · subst hab
      obtain ⟨z,hz,rfl⟩ := h.known b info htimeout hfind
      rw [hheard] at hz
      cases hz
      exact hold
    · exact h.forgotten b y htimeout ((HashMap.erase_of_ne _ hab).symm.trans hb) hheard

/-- The table answers as the log does. -/
theorem outport_recalls {s : EtherSwitch} {now : ℤ} (h : Agrees s log now) (hnow : now ≤ x.frame.stamp) :
    (s.outport x.source x.frame).2 = remembered s.timeout log x ∧
      Agrees (s.outport x.source x.frame).1 (x :: log) x.frame.stamp := by
  have hlearn := (h.learn x).later hnow
  unfold remembered
  rcases outport_cases s x.source x.frame with
    ⟨htimeout,heq⟩ | ⟨-,hgroup,heq⟩ | ⟨htimeout,hgroup,hfind,heq⟩ | ⟨info,htimeout,hgroup,hfind,hage⟩
  · rw [heq,if_pos (.inl htimeout)]
    exact ⟨rfl,fun _ _ hne => absurd htimeout hne,fun _ _ hne => absurd htimeout hne⟩
  · rw [heq,if_pos (.inr hgroup)]
    exact ⟨rfl,hlearn⟩
  · rw [heq,if_neg (by simp [htimeout,hgroup])]
    refine ⟨?_,hlearn⟩
    cases hheard : heardFrom (x :: log) x.frame.dhost with
    | none => rfl
    | some y =>
      have hold := hlearn.forgotten _ y htimeout hfind hheard
      exact (if_neg (Int.not_lt.mpr hold)).symm
  · obtain ⟨y,hheard,rfl⟩ := hlearn.known _ info htimeout hfind
    rw [if_neg (by simp [htimeout,hgroup]),hheard]
    rcases hage with ⟨hfresh,heq⟩ | ⟨hold,heq⟩
    · rw [heq]
      exact ⟨(if_pos hfresh).symm,hlearn⟩
    · rw [heq]
      exact ⟨(if_neg (Int.not_lt.mpr hold)).symm,hlearn.forget hfind hold⟩

theorem run_agrees {xs : List Arrival} (hsorted : xs.Pairwise (fun x y => x.frame.stamp ≤ y.frame.stamp))
    {s : EtherSwitch} {now : ℤ} (hnow : ∀ x ∈ xs, now ≤ x.frame.stamp) (h : Agrees s log now) :
    ∃ t log' out, run (step noutputs) s xs = some (t,out) ∧ run (recordStep noutputs s.timeout) log xs = some (log',out) := by
  induction xs generalizing s log now with
  | nil => exact ⟨s,log,[],rfl,rfl⟩
  | cons x xs ih =>
    obtain ⟨hfirst,hrest⟩ := List.pairwise_cons.mp hsorted
    obtain ⟨hport,hagrees⟩ := outport_recalls h (hnow x List.mem_cons_self)
    obtain ⟨t,log',out,hrun,hlog⟩ := ih hrest hfirst hagrees
    rw [timeout_outport] at hlog
    refine ⟨t,log',(x,copies noutputs x.source (remembered s.timeout log x)) :: out,?_,?_⟩
    · refine run_cons_eq_some.mpr ⟨_,[(x,copies noutputs x.source (remembered s.timeout log x))],out,?_,hrun,rfl⟩
      rw [← hport]
      rfl
    · exact run_cons_eq_some.mpr ⟨_,_,out,rfl,hlog,rfl⟩

/-- Over every run of frames in the order of their time stamps the switch sends what one that forgets nothing does:
what it drops from the table never matters again, and it can not be told from a log of all frames. -/
theorem run_recalls (timeout : ℕ) {xs : List Arrival}
    (hsorted : xs.Pairwise (fun x y => x.frame.stamp ≤ y.frame.stamp)) :
    ∃ s log out, run (step noutputs) { timeout := timeout } xs = some (s,out) ∧
      run (recordStep noutputs timeout) [] xs = some (log,out) := by
  cases xs with
  | nil => exact ⟨_,[],[],rfl,rfl⟩
  | cons x xs =>
    have hfirst : ∀ y ∈ x :: xs, x.frame.stamp ≤ y.frame.stamp := by
      intro y hy
      rcases List.mem_cons.mp hy with rfl | hy
      · exact le_refl _
      · exact (List.pairwise_cons.mp hsorted).1 y hy
    refine run_agrees hsorted (s := { timeout := timeout }) hfirst ⟨fun a info _ ha => ?_,fun a y _ _ hheard => ?_⟩
    · have hempty : (none : Option AddrInfo) = some info := ha
      cases hempty
    · cases hheard

/-- The entry of the first station has timed out when the third frame comes. -/
theorem run_recalls_sample :
    ∃ s log out, run (step 3) { timeout := 1 } [⟨0,⟨1,2,0⟩⟩,⟨1,⟨2,1,5⟩⟩,⟨1,⟨2,1,1000000000⟩⟩] = some (s,out) ∧
      run (recordStep 3 1) [] [⟨0,⟨1,2,0⟩⟩,⟨1,⟨2,1,5⟩⟩,⟨1,⟨2,1,1000000000⟩⟩] = some (log,out) :=
  run_recalls 1 (by decide)

end Log

end ListenEtherSwitch
end ClickMobileIP
