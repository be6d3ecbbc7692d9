import ClickMobileIP.Agent.AgentBase
import ClickMobileIP.Support.EraseSweep

/-! # The home agent's reply element

`push` answers a registration request and updates the bindings; `runTimer` ages
every binding by one second. A missing table entry under a dereference is the
outcome `none`. `alloc` tells whether `Packet::make` succeeds.
-/
namespace ClickMobileIP.RegistrationRequestReply
open EraseSweep

def validatePacket (s : AgentBase) (p : Packet) : UInt16 :=
  let format := p.request
  let flags := format.flags
  if flags &&& 1 ≠ 0 ∨ (flags >>> 2) &&& 1 ≠ 0 then 134
  else if (flags >>> 5) &&& 1 ≠ 0 then 128
  else if format.homeAgent ≠ s.publicAddr then 136
  else 0

/-- The duplicate check: the stored lifetime when the request is the one that
made the current binding. -/
def findDuplicate (s : AgentBase) (format : RegistrationRequestPacketheader) :
    Option (Option UInt16) :=
  if s.isHome format.homeAddr = false then
    match s.table.findPair format.homeAddr with
    | none => none
    | some entry =>
      if entry.id1 = format.id1 ∧ entry.id2 = format.id2 ∧
          entry.mobileNodeHomadress = format.homeAddr ∧ entry.mobileNodeCoa = format.coAddr then
        some (some entry.lifetime)
      else some none
  else some none

def makeReply (p : Packet) (code : UInt16) (lifetime : UInt16) : Packet :=
  let iph := p.ip
  let udph := p.udp
  let format := p.request
  let iphNew : ClickIp :=
    { ipV := 4, ipHl := 5, ipLen := htons 48, ipId := htons 1, ipP := 17, ipTtl := 64,
      ipSrc := iph.ipDst, ipDst := iph.ipSrc }
  let udphNew : ClickUdp := { uhSport := udph.uhDport, uhDport := udph.uhSport, uhUlen := htons 28 }
  let formatNew : RegistrationRequestReplyPacketheader :=
    { type := 3, code := code.toUInt8, lifetime := lifetime, homeAddr := format.homeAddr,
      homeAgent := format.homeAgent, id1 := format.id1, id2 := format.id2 }
  { data := udpPacket iphNew udphNew (RegistrationRequestReplyPacketheader.layout.write formatNew) 28
    dstIpAnno := iphNew.ipDst }

/-- The binding update of an accepted request with a lifetime. -/
def bind (s : AgentBase) (format : RegistrationRequestPacketheader) : AgentBase :=
  let tempentry : HARegistrationEntry :=
    { mobileNodeHomadress := format.homeAddr, mobileNodeCoa := format.coAddr,
      lifetime := format.lifetime, id1 := format.id1, id2 := format.id2 }
  let found := s.list.any (fun addr => addr == format.homeAddr)
  { s with
    table := s.table.insert format.homeAddr tempentry
    list := if found then s.list else s.list ++ [format.homeAddr] }

/-- The binding update of an accepted request without a lifetime. -/
def unbind (s : AgentBase) (format : RegistrationRequestPacketheader) : AgentBase :=
  if s.isHome format.homeAddr = false then
    { s with
      table := s.table.erase format.homeAddr
      list := s.list.erase format.homeAddr }
  else s

def push (alloc : Bool) (s : AgentBase) (p : Packet) : Option (AgentBase × List Emission) :=
  if p.length < 52 then some (s,[])
  else
    let format := p.request
    if format.type ≠ 1 then some (s,[])
    else
      let code := validatePacket s p
      match findDuplicate s format with
      | none => none
      | some duplicate =>
        if alloc = false then some (s,[])
        else
          let packet := makeReply p code (duplicate.getD format.lifetime)
          if code = 0 ∨ code = 1 then
            if 0 < format.lifetime then some (bind s format,[⟨0,packet⟩])
            else some (unbind s format,[⟨1,packet⟩])
          else some (s,[])

/-- One visit of the timer loop: `find_pair` is dereferenced unconditionally. -/
def expireVisit (table : RegistrationTable) (addr : IPAddress) :
    Option (RegistrationTable × Option IPAddress) :=
  match table.findPair addr with
  | none => none
  | some entry =>
    let entry := { entry with lifetime := tickDown entry.lifetime }
    let table := table.insert addr entry
    if entry.lifetime = 0 then some (table.erase addr,none)
    else some (table,some addr)

def runTimer (s : AgentBase) : Option (AgentBase × List Emission) :=
  (sweepForward expireVisit s.list.length s.table s.list 0).map
    (fun r => ({ s with table := r.1, list := r.2 },[]))

section Specification
variable {s : AgentBase} {p : Packet}

/-- The guard in front of the duplicate check makes its dereference safe. -/
theorem findDuplicate_eq (s : AgentBase) (format : RegistrationRequestPacketheader) :
    findDuplicate s format = some ((s.table format.homeAddr).bind (fun entry =>
      if entry.id1 = format.id1 ∧ entry.id2 = format.id2 ∧
          entry.mobileNodeHomadress = format.homeAddr ∧ entry.mobileNodeCoa = format.coAddr then
        some entry.lifetime
      else none)) := by
  unfold findDuplicate
  cases htable : s.table format.homeAddr with
  | none =>
    have hhome : ¬s.isHome format.homeAddr = false := by
      simp only [AgentBase.isHome,HashMap.findPair,htable]
      exact Bool.false_ne_true.symm
    rw [if_neg hhome]
    rfl
  | some entry =>
    have haway : s.isHome format.homeAddr = false := AgentBase.isHome_eq_false.mpr ⟨entry,htable⟩
    simp only [haway,HashMap.findPair,htable,↓reduceIte,Option.bind_some]
    split
    · rfl
    · rfl

theorem findDuplicate_isSome (s : AgentBase) (format : RegistrationRequestPacketheader) :
    ∃ duplicate, findDuplicate s format = some duplicate := ⟨_,findDuplicate_eq s format⟩

theorem bind_table (s : AgentBase) (format : RegistrationRequestPacketheader) (addr : IPAddress) :
    (bind s format).table addr =
      if addr = format.homeAddr then
        some ⟨format.homeAddr,format.coAddr,format.lifetime,format.id1,format.id2⟩
      else s.table addr := by
  by_cases h : addr = format.homeAddr
  · subst h
    simp [bind]
  · simp [bind,h,HashMap.insert_of_ne]

theorem bind_list (s : AgentBase) (format : RegistrationRequestPacketheader) :
    (bind s format).list =
      if format.homeAddr ∈ s.list then s.list else s.list ++ [format.homeAddr] := by
  simp [bind]

theorem mem_bind_list {s : AgentBase} {format : RegistrationRequestPacketheader} {addr : IPAddress} :
    addr ∈ (bind s format).list ↔ addr = format.homeAddr ∨ addr ∈ s.list := by
  rw [bind_list]
  split
  · rename_i hm
    constructor
    · exact Or.inr
    · rintro (rfl | h)
      · exact hm
      · exact h
  · simp [or_comm]

theorem unbind_table (s : AgentBase) (format : RegistrationRequestPacketheader) (addr : IPAddress) :
    (unbind s format).table addr = if addr = format.homeAddr then none else s.table addr := by
  unfold unbind
  split
  · by_cases h : addr = format.homeAddr
    · subst h
      simp
    · simp [h,HashMap.erase_of_ne]
  · rename_i hb
    by_cases h : addr = format.homeAddr
    · subst h
      cases ht : s.table format.homeAddr with
      | none => simp
      | some entry => exact absurd (AgentBase.isHome_eq_false.mpr ⟨entry,ht⟩) hb
    · simp [h]

inductive Pushed (alloc : Bool) (s : AgentBase) (p : Packet) : AgentBase → List Emission → Prop
  | ignored (h : p.IsRequest → alloc = true → validatePacket s p ≠ 0) : Pushed alloc s p s []
  | bound (hp : p.IsRequest) (ha : alloc = true) (hc : validatePacket s p = 0)
      (hl : p.request.lifetime ≠ 0) (lifetime : UInt16)
      (hd : findDuplicate s p.request = some none ∧ lifetime = p.request.lifetime ∨
        findDuplicate s p.request = some (some lifetime)) :
      Pushed alloc s p (bind s p.request) [⟨0,makeReply p 0 lifetime⟩]
  | unbound (hp : p.IsRequest) (ha : alloc = true) (hc : validatePacket s p = 0)
      (hl : p.request.lifetime = 0) (lifetime : UInt16)
      (hd : findDuplicate s p.request = some none ∧ lifetime = p.request.lifetime ∨
        findDuplicate s p.request = some (some lifetime)) :
      Pushed alloc s p (unbind s p.request) [⟨1,makeReply p 0 lifetime⟩]

theorem validatePacket_ne_one : validatePacket s p ≠ 1 := by
  unfold validatePacket
  dsimp only
  split_ifs <;> decide

theorem push_pushed (alloc : Bool) (s : AgentBase) (p : Packet) :
    ∃ t out, push alloc s p = some (t,out) ∧ Pushed alloc s p t out := by
  obtain ⟨duplicate,hd⟩ := findDuplicate_isSome s p.request
  have hdup : findDuplicate s p.request = some none ∧ duplicate.getD p.request.lifetime =
      p.request.lifetime ∨ findDuplicate s p.request = some (some (duplicate.getD p.request.lifetime)) := by
    cases duplicate with
    | none => exact Or.inl ⟨hd,rfl⟩
    | some lifetime => exact Or.inr hd
  unfold push
  by_cases hlen : p.length < 52
  · exact ⟨s,[],by simp only [hlen,↓reduceIte],.ignored (fun h => by have := h.1; omega)⟩
  by_cases htype : p.request.type ≠ 1
  · exact ⟨s,[],by simp [hlen,htype],.ignored (fun h => absurd h.2 htype)⟩
  have hp : p.IsRequest := ⟨by omega,not_not.mp htype⟩
  simp only [hlen,htype,hd,↓reduceIte]
  cases alloc with
  | false => exact ⟨s,[],rfl,.ignored (fun _ h => by cases h)⟩
  | true =>
    simp only [Bool.true_eq_false,↓reduceIte]
    by_cases hcode : validatePacket s p = 0
    · simp only [hcode,true_or,↓reduceIte]
      by_cases hlife : 0 < p.request.lifetime
      · simp only [hlife,↓reduceIte]
        exact ⟨_,_,rfl,.bound hp rfl hcode (by rintro h; rw [h] at hlife; exact absurd hlife (by decide))
          _ hdup⟩
      · simp only [hlife,↓reduceIte]
        have hzero : p.request.lifetime = 0 := by
          apply UInt16.toNat_inj.mp
          rw [UInt16.lt_iff_toNat_lt] at hlife
          simpa using hlife
        exact ⟨_,_,rfl,.unbound hp rfl hcode hzero _ hdup⟩
    · simp only [hcode,validatePacket_ne_one,or_self,↓reduceIte]
      exact ⟨s,[],rfl,.ignored (fun _ _ => hcode)⟩

theorem pushed_of_push {alloc : Bool} {t : AgentBase} {out : List Emission}
    (h : push alloc s p = some (t,out)) : Pushed alloc s p t out := by
  obtain ⟨t',out',h',hp⟩ := push_pushed alloc s p
  rw [h] at h'
  cases h'
  exact hp

/-- Whatever is sent is the reply with the code of the validation and the lifetime of the
duplicate, if there is one. -/
theorem mem_push {alloc : Bool} {t : AgentBase} {out : List Emission} {e : Emission} {duplicate : Option UInt16}
    (h : push alloc s p = some (t,out)) (he : e ∈ out) (hd : findDuplicate s p.request = some duplicate) :
    e.packet = makeReply p (validatePacket s p) (duplicate.getD p.request.lifetime) := by
  have hlifetime : ∀ lifetime, (findDuplicate s p.request = some none ∧ lifetime = p.request.lifetime ∨
      findDuplicate s p.request = some (some lifetime)) → duplicate.getD p.request.lifetime = lifetime := by
    rintro lifetime (⟨hnone,rfl⟩ | hsome)
    · cases hd.symm.trans hnone
      rfl
    · cases hd.symm.trans hsome
      rfl
  cases pushed_of_push h with
  | ignored => exact absurd he List.not_mem_nil
  | bound _ _ hc _ lifetime hdup => rw [List.mem_singleton.mp he,hc,hlifetime lifetime hdup]
  | unbound _ _ hc _ lifetime hdup => rw [List.mem_singleton.mp he,hc,hlifetime lifetime hdup]

end Specification
end ClickMobileIP.RegistrationRequestReply
