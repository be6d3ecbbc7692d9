import ClickMobileIP.Router.Annotated
import ClickMobileIP.Support.Reassembly

/-! # Options that a gateway processes

`IPGWOptions` walks over the options of a header, enters its address or the time in the
record route and timestamp options and seals the header anew. The walk trusts the length
of an option as long as the option ends inside the header: a timestamp option of two or
three bytes has its flag byte behind its end, possibly in the payload, and the last byte of
a header can be read as an option whose length stands behind it. A read behind the packet
is a fault.
-/
namespace ClickMobileIP
open ByteLayout Reassembly

structure IPGWOptions where
  preferredAddr : IPAddress
  otherAddrs : List IPAddress := []

/-- There are no options, or at least two bytes follow them. -/
def Packet.OptionsInside (p : Packet) : Prop := p.headerLength ≤ 20 ∨ p.headerLength + 2 ≤ p.length

instance (p : Packet) : Decidable p.OptionsInside := inferInstanceAs (Decidable (_ ∨ _))

namespace IPGWOptions
variable (g : IPGWOptions) (ms : UInt32)

/-- `_my_addrs`, to which `configure` appends the preferred address. -/
def myAddrs : List IPAddress := g.otherAddrs ++ [g.preferredAddr]

/-- A byte that the walk has read before. -/
def byteAt (oa : List UInt8) (i : ℕ) : UInt8 := oa.getD i 0

/-- `woa[i] += n`, for a byte that the walk has read before. -/
def advance (woa : List UInt8) (i : ℕ) (n : UInt8) : List UInt8 := woa.set i (byteAt woa i + n)

/-- `IPOPT_RR`: the address goes to the place that the pointer names. The error is the
offset of the byte that is to blame. -/
def recordRoute (oa : List UInt8) (oi xlen : ℕ) : Option (Except ℕ (List UInt8)) :=
  (oa[oi + 2]?).map (fun ptr =>
    let p : ℤ := ptr.toNat - 1
    if 3 ≤ p ∧ p + 4 ≤ xlen then
      .ok (advance (overwrite oa (oi + p.toNat,Layout.u32.write g.preferredAddr)) (oi + 2) 4)
    else if p ≠ xlen then .error (oi + 2)
    else .ok oa)

/-- The overflow counter is the upper half of the flag byte. -/
def overflow (oa : List UInt8) (oi : ℕ) (flags : UInt8) : Except ℕ (List UInt8) :=
  let oflw := flags >>> 4
  let flg := flags &&& (0xf : UInt8)
  if oflw < 15 then .ok (oa.set (oi + 3) (((oflw + 1) <<< 4) ||| flg)) else .error (oi + 3)

/-- `IPOPT_TS` behind its first four bytes; `ms` are the milliseconds of the day in network order. -/
def stamp (oa : List UInt8) (oi xlen : ℕ) (ptr flags : UInt8) : Except ℕ (List UInt8) :=
  let p : ℤ := ptr.toNat - 1
  let flg := flags &&& (0xf : UInt8)
  if p < 4 then .error (oi + 2)
  else if flg = 0 then
    if p + 4 ≤ xlen then .ok (advance (overwrite oa (oi + p.toNat,Layout.u32.write ms)) (oi + 2) 4)
    else overflow oa oi flags
  else if flg = 1 then
    if p + 8 ≤ xlen then
      .ok (advance (overwrite (overwrite oa (oi + p.toNat,Layout.u32.write g.preferredAddr))
        (oi + p.toNat + 4,Layout.u32.write ms)) (oi + 2) 8)
    else overflow oa oi flags
  else if flg = 3 ∧ p + 8 ≤ xlen then
    if Layout.u32.read (oa.drop (oi + p.toNat)) ∈ g.myAddrs then
      .ok (advance (overwrite oa (oi + p.toNat + 4,Layout.u32.write ms)) (oi + 2) 8)
    else .ok oa
  else .error (oi + 3)

/-- Pointer and flags are read before anything is looked at. -/
def timestamp (oa : List UInt8) (oi xlen : ℕ) : Option (Except ℕ (List UInt8)) :=
  (oa[oi + 2]?).bind (fun ptr => (oa[oi + 3]?).map (g.stamp ms oa oi xlen ptr))

/-- The loop of `handle_options`: where it stopped and the bytes it leaves behind, or the bytes
and whether some of them were made writable. -/
def optionLoop (hlen : ℕ) : ℕ → ℕ → List UInt8 → Bool → Option (Except (ℕ × List UInt8) (List UInt8 × Bool))
  | 0, _, oa, wp => some (.ok (oa,wp))
  | fuel + 1, oi, oa, wp =>
    if hlen ≤ oi then some (.ok (oa,wp))
    else
      match oa[oi]? with
      | none => none
      | some type =>
        if type = 1 then optionLoop hlen fuel (oi + 1) oa wp
        else if type = 0 then some (.ok (oa,wp))
        else
          match oa[oi + 1]? with
          | none => none
          | some len =>
            let xlen := len.toNat
            if xlen < 2 ∨ hlen < oi + xlen then some (.error (oi + 1,oa))
            else if type ≠ 7 ∧ type ≠ 68 then optionLoop hlen fuel (oi + xlen) oa wp
            else
              match if type = 7 then g.recordRoute oa oi xlen else g.timestamp ms oa oi xlen with
              | none => none
              | some (.error at') => some (.error (at',oa))
              | some (.ok oa') => optionLoop hlen fuel (oi + xlen) oa' true

/-- For a packet that no other element shares, so that it can be written to as it is. -/
def handleOptions (a : Annotated) : Option Pushes :=
  match g.optionLoop ms a.packet.headerLength a.packet.headerLength 20 a.packet.data false with
  | none => none
  | some (.error (oi,oa)) => some [(1,{ a with packet := { a.packet with data := oa }, paramProb := UInt8.ofNat oi })]
  | some (.ok (oa,true)) => some [(0,a.withPacket ({ a.packet with data := oa } : Packet).reseal)]
  | some (.ok (_,false)) => some [(0,a)]

def simpleAction (a : Annotated) : Option Pushes :=
  if a.packet.headerLength ≤ 20 then some [(0,a)] else g.handleOptions ms a

section Frame
variable {g ms} {oa oa' : List UInt8} {oi xlen hlen : ℕ} {flags : UInt8}

theorem advance_sameOutside {lo hi i : ℕ} {n : UInt8} (hlo : lo ≤ i) (hhi : i < hi) :
    SameOutside lo hi oa (advance oa i n) := SameOutside.set hlo hhi

theorem overwrite_sameOutside {lo hi off : ℕ} {w : UInt32} (hlo : lo ≤ off) (hhi : off + 4 ≤ hi)
    (hroom : hi ≤ oa.length) : SameOutside lo hi oa (overwrite oa (off,Layout.u32.write w)) :=
  SameOutside.overwrite hlo hhi (hhi.trans hroom)

theorem recordRoute_frame (hroom : oi + xlen ≤ oa.length) (h : g.recordRoute oa oi xlen = some (.ok oa')) :
    SameOutside (oi + 2) (oi + xlen) oa oa' := by
  obtain ⟨ptr,-,h⟩ := Option.map_eq_some_iff.mp h
  dsimp only at h
  split_ifs at h with hslot hfull
  · cases h
    have hwrite : SameOutside (oi + 2) (oi + xlen) oa
        (overwrite oa (oi + (ptr.toNat - 1 : ℤ).toNat,Layout.u32.write g.preferredAddr)) :=
      overwrite_sameOutside (by omega) (by omega) hroom
    exact hwrite.trans (advance_sameOutside (le_refl _) (by omega))
  · cases h
    exact SameOutside.refl _ _ _

theorem overflow_frame (h : overflow oa oi flags = .ok oa') : SameOutside (oi + 2) (oi + 4) oa oa' := by
  unfold overflow at h
  dsimp only at h
  split_ifs at h with hroom
  cases h
  exact SameOutside.set (by omega) (by omega)

/-- The time is recorded inside the option, but the flag byte is its fourth, however short it is. -/
theorem timestamp_frame (hroom : oi + xlen ≤ oa.length) (h : g.timestamp ms oa oi xlen = some (.ok oa')) :
    SameOutside (oi + 2) (oi + max xlen 4) oa oa' := by
  obtain ⟨ptr,-,h⟩ := Option.bind_eq_some_iff.mp h
  obtain ⟨flags,-,h⟩ := Option.map_eq_some_iff.mp h
  unfold stamp at h
  dsimp only at h
  have hoverflow : overflow oa oi flags = .ok oa' → SameOutside (oi + 2) (oi + max xlen 4) oa oa' :=
    fun hflow => (overflow_frame hflow).mono (le_refl _) (by omega)
  split_ifs at h with hfirst hnone hfits hboth hfits hmine hfound
  · cases h
    have hwrite : SameOutside (oi + 2) (oi + xlen) oa
        (overwrite oa (oi + (ptr.toNat - 1 : ℤ).toNat,Layout.u32.write ms)) :=
      overwrite_sameOutside (by omega) (by omega) hroom
    exact (hwrite.trans (advance_sameOutside (le_refl _) (by omega))).mono (le_refl _) (by omega)
  · exact hoverflow h
  · cases h
    have haddr : SameOutside (oi + 2) (oi + xlen) oa
        (overwrite oa (oi + (ptr.toNat - 1 : ℤ).toNat,Layout.u32.write g.preferredAddr)) :=
      overwrite_sameOutside (by omega) (by omega) hroom
    have hboth : SameOutside (oi + 2) (oi + xlen) oa (overwrite
        (overwrite oa (oi + (ptr.toNat - 1 : ℤ).toNat,Layout.u32.write g.preferredAddr))
        (oi + (ptr.toNat - 1 : ℤ).toNat + 4,Layout.u32.write ms)) :=
      haddr.trans (overwrite_sameOutside (by omega) (by omega) (haddr.length ▸ hroom))
    exact (hboth.trans (advance_sameOutside (le_refl _) (by omega))).mono (le_refl _) (by omega)
  · exact hoverflow h
  · cases h
    have hwrite : SameOutside (oi + 2) (oi + xlen) oa
        (overwrite oa (oi + (ptr.toNat - 1 : ℤ).toNat + 4,Layout.u32.write ms)) :=
      overwrite_sameOutside (by omega) (by omega) hroom
    exact (hwrite.trans (advance_sameOutside (le_refl _) (by omega))).mono (le_refl _) (by omega)
  · cases h
    exact SameOutside.refl _ _ _

theorem recordRoute_error {k : ℕ} (h : g.recordRoute oa oi xlen = some (.error k)) : k = oi + 2 := by
  obtain ⟨ptr,-,h⟩ := Option.map_eq_some_iff.mp h
  dsimp only at h
  split_ifs at h
  cases h
  rfl

theorem overflow_error {k : ℕ} (h : overflow oa oi flags = .error k) : k = oi + 3 := by
  unfold overflow at h
  dsimp only at h
  split_ifs at h
  cases h
  rfl

theorem timestamp_error {k : ℕ} (h : g.timestamp ms oa oi xlen = some (.error k)) : k = oi + 2 ∨ k = oi + 3 := by
  obtain ⟨ptr,-,h⟩ := Option.bind_eq_some_iff.mp h
  obtain ⟨flags,-,h⟩ := Option.map_eq_some_iff.mp h
  unfold stamp at h
  dsimp only at h
  split_ifs at h
  · cases h
    exact .inl rfl
  · exact .inr (overflow_error h)
  · exact .inr (overflow_error h)
  · cases h
    exact .inr rfl

/-- The options as the walk meets them, with every timestamp option long enough for its flags. -/
def Complete (hlen : ℕ) : ℕ → ℕ → List UInt8 → Prop
  | 0, _, _ => True
  | fuel + 1, oi, oa =>
    hlen ≤ oi ∨
      let type := byteAt oa oi
      let xlen := (byteAt oa (oi + 1)).toNat
      if type = 1 then Complete hlen fuel (oi + 1) oa
      else if type = 0 ∨ xlen < 2 ∨ hlen < oi + xlen then True
      else (type = 68 → 4 ≤ xlen) ∧ Complete hlen fuel (oi + xlen) oa

/-- Only the bytes ahead matter. -/
theorem complete_congr {fuel oi : ℕ} (h : ∀ i, oi ≤ i → oa'[i]? = oa[i]?) :
    Complete hlen fuel oi oa' ↔ Complete hlen fuel oi oa := by
  induction fuel generalizing oi with
  | zero => rfl
  | succ fuel ih =>
    have hbyte : ∀ i, oi ≤ i → byteAt oa' i = byteAt oa i := by
      intro i hi
      rw [byteAt,byteAt,List.getD_eq_getElem?_getD,List.getD_eq_getElem?_getD,h i hi]
    have hnext : ∀ n, Complete hlen fuel (oi + n) oa' ↔ Complete hlen fuel (oi + n) oa :=
      fun n => ih (fun i hi => h i (by omega))
    simp only [Complete,hbyte oi (le_refl _),hbyte (oi + 1) (by omega),hnext]

structure Walked (hlen fuel oi : ℕ) (oa oa' : List UInt8) : Prop where
  frame : SameOutside 22 (hlen + 2) oa oa'
  inside : Complete hlen fuel oi oa → SameOutside 22 hlen oa oa'

theorem Walked.refl {fuel : ℕ} : Walked hlen fuel oi oa oa :=
  ⟨SameOutside.refl _ _ _,fun _ => SameOutside.refl _ _ _⟩

theorem Walked.cons {fuel : ℕ} {oa'' : List UInt8} (hoi : 20 ≤ oi) (hin : ¬hlen ≤ oi) (hnop : byteAt oa oi ≠ 1)
    (hend : byteAt oa oi ≠ 0) (hlen2 : ¬(xlen < 2 ∨ hlen < oi + xlen)) (hx : xlen = (byteAt oa (oi + 1)).toNat)
    (hone : SameOutside (oi + 2) (oi + max xlen 4) oa oa')
    (hkind : (byteAt oa oi = 68 → 4 ≤ xlen) → SameOutside (oi + 2) (oi + xlen) oa oa')
    (hrest : Walked hlen fuel (oi + xlen) oa' oa'') : Walked hlen (fuel + 1) oi oa oa'' := by
  refine ⟨(hone.mono (by omega) (by omega)).trans hrest.frame,fun hcomplete => ?_⟩
  rw [Complete] at hcomplete
  dsimp only at hcomplete
  rw [← hx,if_neg hnop,if_neg (by tauto)] at hcomplete
  obtain ⟨hfour,hcomplete⟩ := hcomplete.resolve_left hin
  have hfirst := hkind hfour
  have hahead : Complete hlen fuel (oi + xlen) oa' :=
    (complete_congr (fun i hi => hfirst.outside i (.inr hi))).mpr hcomplete
  exact (hfirst.mono (by omega) (by omega)).trans (hrest.inside hahead)

/-- The bytes that the loop leaves behind, in either outcome. -/
def Outcome (hlen fuel oi : ℕ) (oa : List UInt8) : Except (ℕ × List UInt8) (List UInt8 × Bool) → Prop
  | .ok (oa',_) => Walked hlen fuel oi oa oa'
  | .error (k,oa') => Walked hlen fuel oi oa oa' ∧ 21 ≤ k ∧ k ≤ hlen + 1

theorem Outcome.mono {fuel oi' fuel' : ℕ} {oa' : List UInt8} {r : Except (ℕ × List UInt8) (List UInt8 × Bool)}
    (h : ∀ oa'', Walked hlen fuel' oi' oa' oa'' → Walked hlen fuel oi oa oa'')
    (hr : Outcome hlen fuel' oi' oa' r) : Outcome hlen fuel oi oa r := by
  match r with
  | .ok (oa'',_) => exact h oa'' hr
  | .error (k,oa'') => exact ⟨h oa'' hr.1,hr.2⟩

theorem byteAt_of_getElem? {i : ℕ} {b : UInt8} (h : oa[i]? = some b) : byteAt oa i = b := by
  rw [byteAt,List.getD_eq_getElem?_getD,h,Option.getD_some]

theorem option_error {type : UInt8} {k : ℕ}
    (h : (if type = 7 then g.recordRoute oa oi xlen else g.timestamp ms oa oi xlen) = some (.error k)) :
    k = oi + 2 ∨ k = oi + 3 := by
  split_ifs at h
  · exact .inl (recordRoute_error h)
  · exact timestamp_error h

/-- Only a timestamp option shorter than its own flag byte is written behind its end. -/
theorem option_frame {type : UInt8} (hroom : oi + xlen ≤ oa.length) (htype : type = 7 ∨ type = 68)
    (h : (if type = 7 then g.recordRoute oa oi xlen else g.timestamp ms oa oi xlen) = some (.ok oa')) :
    SameOutside (oi + 2) (oi + max xlen 4) oa oa' ∧
      ((type = 68 → 4 ≤ xlen) → SameOutside (oi + 2) (oi + xlen) oa oa') := by
  split_ifs at h with hroute
  · have hframe := recordRoute_frame hroom h
    exact ⟨hframe.mono (le_refl _) (by omega),fun _ => hframe⟩
  · have hframe := timestamp_frame hroom h
    refine ⟨hframe,fun hfour => ?_⟩
    have hlong := hfour (htype.resolve_left hroute)
    exact hframe.mono (le_refl _) (by omega)

variable (g ms) in
theorem optionLoop_outcome {fuel : ℕ} (hoi : 20 ≤ oi) (hroom : hlen ≤ oa.length) (wp : Bool)
    {r : Except (ℕ × List UInt8) (List UInt8 × Bool)} (h : g.optionLoop ms hlen fuel oi oa wp = some r) :
    Outcome hlen fuel oi oa r := by
  induction fuel generalizing oi oa wp with
  | zero =>
    cases h
    exact Walked.refl
  | succ fuel ih =>
    rw [optionLoop] at h
    by_cases hin : hlen ≤ oi
    · rw [if_pos hin] at h
      cases h
      exact Walked.refl
    rw [if_neg hin] at h
    cases htype : oa[oi]? with
    | none =>
      rw [htype] at h
      cases h
    | some type =>
      rw [htype] at h
      dsimp only at h
      have hbyte := byteAt_of_getElem? htype
      by_cases hnop : type = 1
      · rw [if_pos hnop] at h
        refine (ih (by omega) hroom wp h).mono (fun oa'' hwalk => ⟨hwalk.frame,fun hcomplete => hwalk.inside ?_⟩)
        rw [Complete] at hcomplete
        dsimp only at hcomplete
        rw [hbyte,if_pos hnop] at hcomplete
        exact hcomplete.resolve_left hin
      rw [if_neg hnop] at h
      by_cases hend : type = 0
      · rw [if_pos hend] at h
        cases h
        exact Walked.refl
      rw [if_neg hend] at h
      cases hlen' : oa[oi + 1]? with
      | none =>
        rw [hlen'] at h
        cases h
      | some len =>
        rw [hlen'] at h
        dsimp only at h
        have hxlen : len.toNat = (byteAt oa (oi + 1)).toNat := by rw [byteAt_of_getElem? hlen']
        by_cases hbad : len.toNat < 2 ∨ hlen < oi + len.toNat
        · rw [if_pos hbad] at h
          cases h
          exact ⟨Walked.refl,by omega,by omega⟩
        rw [if_neg hbad] at h
        have hone : ∀ {fuel : ℕ} {oa' oa'' : List UInt8}, SameOutside (oi + 2) (oi + max len.toNat 4) oa oa' →
            ((byteAt oa oi = 68 → 4 ≤ len.toNat) → SameOutside (oi + 2) (oi + len.toNat) oa oa') →
            Walked hlen fuel (oi + len.toNat) oa' oa'' → Walked hlen (fuel + 1) oi oa oa'' :=
          Walked.cons hoi hin (by rw [hbyte]; exact hnop) (by rw [hbyte]; exact hend) hbad hxlen
        by_cases hother : type ≠ 7 ∧ type ≠ 68
        · rw [if_pos hother] at h
          exact (ih (by omega) hroom wp h).mono (fun oa'' => hone (SameOutside.refl _ _ _) (fun _ => SameOutside.refl _ _ _))
        rw [if_neg hother] at h
        have hopt : oi + len.toNat ≤ oa.length := by omega
        rcases hserved : (if type = 7 then g.recordRoute oa oi len.toNat else g.timestamp ms oa oi len.toNat) with
          _ | (k | oa')
        · rw [hserved] at h
          cases h
        · rw [hserved] at h
          cases h
          have hk := option_error hserved
          exact ⟨Walked.refl,by omega,by omega⟩
        · rw [hserved] at h
          have hkind : byteAt oa oi = 7 ∨ byteAt oa oi = 68 := by
            rw [hbyte]
            tauto
          rw [← hbyte] at hserved
          obtain ⟨hframe,hshort⟩ := option_frame hopt hkind hserved
          exact (ih (by omega) (hframe.length ▸ hroom) true h).mono (fun oa'' => hone hframe hshort)

theorem recordRoute_ne_none (h : oi + 2 < oa.length) : g.recordRoute oa oi xlen ≠ none := by
  rw [recordRoute,List.getElem?_eq_getElem h]
  exact Option.some_ne_none _

theorem timestamp_ne_none (h : oi + 3 < oa.length) : g.timestamp ms oa oi xlen ≠ none := by
  have hptr : oi + 2 < oa.length := by omega
  rw [timestamp,List.getElem?_eq_getElem hptr,List.getElem?_eq_getElem h]
  exact Option.some_ne_none _

/-- Two bytes behind the header are all that the walk can read too much. -/
theorem optionLoop_ne_none {fuel : ℕ} (hroom : hlen + 2 ≤ oa.length) (wp : Bool) :
    g.optionLoop ms hlen fuel oi oa wp ≠ none := by
  induction fuel generalizing oi oa wp with
  | zero => exact Option.some_ne_none _
  | succ fuel ih =>
    rw [optionLoop]
    by_cases hin : hlen ≤ oi
    · rw [if_pos hin]
      exact Option.some_ne_none _
    have hfirst : oi < oa.length := by omega
    have hsecond : oi + 1 < oa.length := by omega
    rw [if_neg hin,List.getElem?_eq_getElem hfirst,List.getElem?_eq_getElem hsecond]
    dsimp only
    split_ifs with hnop hend hbad hother hroute
    · exact ih hroom wp
    · exact Option.some_ne_none _
    · exact Option.some_ne_none _
    · exact ih hroom wp
    · rcases hr : g.recordRoute oa oi (oa[oi + 1]).toNat with _ | (k | oa')
      · exact absurd hr (recordRoute_ne_none (by omega))
      · exact Option.some_ne_none _
      · have hframe := recordRoute_frame (by omega) hr
        exact ih (hframe.length ▸ hroom) true
    · rcases ht : g.timestamp ms oa oi (oa[oi + 1]).toNat with _ | (k | oa')
      · exact absurd ht (timestamp_ne_none (by omega))
      · exact Option.some_ne_none _
      · have hframe := timestamp_frame (by omega) ht
        exact ih (hframe.length ▸ hroom) true

end Frame

section Patched
variable {p : Packet} {d : List UInt8} {hi : ℕ}

theorem ip_patched (h : SameOutside 22 hi p.data d) (hfixed : 20 ≤ p.length) :
    ({ p with data := d } : Packet).ip = p.ip := by
  have htake : d.take 20 = p.data.take 20 := h.take (by decide)
  have hd : 20 ≤ d.length := h.length ▸ hfixed
  have hread : ∀ bytes : List UInt8, 20 ≤ bytes.length →
      ClickIp.layout.read (bytes.take 20) = ClickIp.layout.read bytes :=
    fun bytes hbytes => Layout.read_take ClickIp.layout hbytes (le_refl 20)
  rw [Packet.ip,Packet.ip,← hread d hd,← hread p.data hfixed,htake]

theorem patched_wellHeaded (h : SameOutside 22 hi p.data d) (hp : p.WellHeaded) :
    ({ p with data := d } : Packet).WellHeaded := by
  have hip := ip_patched h hp.fixed
  refine ⟨?_,?_,?_⟩
  · exact hp.fixed.trans_eq h.length.symm
  · rw [hip]
    exact hp.version
  · rw [Packet.headerLength,hip]
    exact hp.header

theorem reseal_patched_valid (h : SameOutside 22 hi p.data d) (hp : p.Valid) :
    ({ p with data := d } : Packet).reseal.Valid := by
  have hip := ip_patched h hp.headed.fixed
  have hheaded := patched_wellHeaded h hp.headed
  have hlength : ({ p with data := d } : Packet).length = p.length := h.length
  refine ⟨hheaded.reseal,?_,?_,Packet.headerVerifies_reseal hheaded⟩
  · rw [Packet.headerLength_reseal,Packet.length_reseal hheaded.fixed,Packet.headerLength,hip,hlength]
    exact hp.room
  · rw [Packet.ip_reseal,Packet.length_reseal hheaded.fixed,hlength,hip]
    exact hp.announced

end Patched

variable {a : Annotated}

/-- A packet that goes on: what is allowed to have changed is the options and the checksum. -/
structure Processed (p q : Packet) : Prop where
  valid : q.Valid
  length : q.length = p.length
  ip : q.ip = p.ip.withSum q.ip.ipSum
  anno : q.dstIpAnno = p.dstIpAnno
  payload : Complete p.headerLength p.headerLength 20 p.data → q.datagram = p.datagram

theorem Processed.refl {p : Packet} (hp : p.Valid) : Processed p p := ⟨hp,rfl,rfl,rfl,fun _ => rfl⟩

/-- For every valid packet, whatever its options: it goes on with a valid header, the same
members and the same length, and with the same payload if its timestamp options are complete;
or it leaves at output 1 with the same members and the same length and a pointer that may be
as far as one byte behind the header; or the walk reads behind it, and then it has options and
ends with its header or one byte later. -/
theorem simpleAction_processed (hp : a.packet.Valid) :
    (∃ q, g.simpleAction ms a = some [(0,a.withPacket q)] ∧ Processed a.packet q) ∨
    (∃ q k, g.simpleAction ms a = some [(1,{ a with packet := q, paramProb := k })] ∧
      21 ≤ k.toNat ∧ k.toNat ≤ a.packet.headerLength + 1 ∧ q.ip = a.packet.ip ∧ q.length = a.packet.length) ∨
    (g.simpleAction ms a = none ∧ ¬a.packet.OptionsInside) := by
  rw [simpleAction]
  by_cases hplain : a.packet.headerLength ≤ 20
  · rw [if_pos hplain]
    exact .inl ⟨a.packet,rfl,Processed.refl hp⟩
  rw [if_neg hplain,handleOptions]
  cases hloop : g.optionLoop ms a.packet.headerLength a.packet.headerLength 20 a.packet.data false with
  | none =>
    refine .inr (.inr ⟨rfl,fun hinside => ?_⟩)
    exact optionLoop_ne_none (hinside.resolve_left hplain) false hloop
  | some r =>
    have houtcome := optionLoop_outcome g ms (le_refl 20) hp.room false hloop
    rcases r with ⟨k,oa⟩ | ⟨oa,wp⟩
    · obtain ⟨hwalk,hlow,hhigh⟩ := houtcome
      have hle := a.packet.headerLength_le
      have hk : (UInt8.ofNat k).toNat = k := by
        rw [UInt8.toNat_ofNat']
        exact Nat.mod_eq_of_lt (by omega)
      refine .inr (.inl ⟨{ a.packet with data := oa },UInt8.ofNat k,rfl,by omega,by omega,?_,hwalk.frame.length⟩)
      exact ip_patched hwalk.frame hp.headed.fixed
    · have hwalk : Walked a.packet.headerLength a.packet.headerLength 20 a.packet.data oa := houtcome
      have hip := ip_patched hwalk.frame hp.headed.fixed
      have hheaded := patched_wellHeaded hwalk.frame hp.headed
      cases wp with
      | true =>
        refine .inl ⟨_,rfl,reseal_patched_valid hwalk.frame hp,?_,?_,rfl,fun hcomplete => ?_⟩
        · rw [Packet.length_reseal hheaded.fixed]
          exact hwalk.frame.length
        · conv_lhs => rw [Packet.ip_reseal,hip]
        · rw [Packet.datagram_reseal hheaded.header,Packet.datagram,Packet.headerLength,hip]
          exact (hwalk.inside hcomplete).drop (le_refl _)
      | false => exact .inl ⟨a.packet,rfl,Processed.refl hp⟩

def sampleRoute : Annotated where
  packet := (⟨ClickIp.layout.write
    { ipV := 4, ipHl := 7, ipLen := htons 28, ipTtl := 9, ipP := 1, ipSrc := 9, ipDst := 3 } ++ [7,7,4,0,0,0,0,0],3⟩ : Packet).reseal

/-- A packet that ends with its header, whose last byte starts an option. -/
def cutRoute : Annotated where
  packet := (⟨ClickIp.layout.write
    { ipV := 4, ipHl := 6, ipLen := htons 24, ipTtl := 9, ipP := 1, ipSrc := 9, ipDst := 3 } ++ [1,1,1,7],3⟩ : Packet).reseal

theorem simpleAction_processed_sample :
    (∃ q, simpleAction ⟨5,[]⟩ 0 sampleRoute = some [(0,sampleRoute.withPacket q)] ∧ Processed sampleRoute.packet q) ∧
      simpleAction ⟨5,[]⟩ 0 cutRoute = none := by
  refine ⟨?_,by decide +kernel⟩
  have hvalid : sampleRoute.packet.Valid :=
    ⟨⟨by decide +kernel,by decide +kernel,by decide +kernel⟩,by decide +kernel,by decide +kernel,by decide +kernel⟩
  have houtput : (simpleAction ⟨5,[]⟩ 0 sampleRoute).map (List.map Prod.fst) = some [0] := by decide +kernel
  rcases @simpleAction_processed ⟨5,[]⟩ 0 sampleRoute hvalid with ⟨q,hq,hprocessed⟩ | ⟨q,k,hq,-⟩ | ⟨hq,-⟩
  · exact ⟨q,hq,hprocessed⟩
  · rw [hq] at houtput
    cases houtput
  · rw [hq] at houtput
    cases houtput

end IPGWOptions
end ClickMobileIP
