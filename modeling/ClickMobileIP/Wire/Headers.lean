import ClickMobileIP.Support.ByteLayout

/-! # Header structures on the wire

The C structures of the IP, UDP and Mobile IP headers, member by member and in
their order in memory. A member that a constructor does not name is zero, as the
builders clear their packets before they fill them in.
-/
namespace ClickMobileIP
open ByteLayout ByteLayout.Layout

/-- An IPv4 address as the host reads its four bytes. -/
abbrev IPAddress := UInt32

abbrev EtherAddress := BitVec 48

/-- `struct click_ip` on a little-endian host: the header length is the low half
of the first byte. -/
structure ClickIp where
  ipHl : BitVec 4 := 0
  ipV : BitVec 4 := 0
  ipTos : UInt8 := 0
  ipLen : UInt16 := 0
  ipId : UInt16 := 0
  ipOff : UInt16 := 0
  ipTtl : UInt8 := 0
  ipP : UInt8 := 0
  ipSum : UInt16 := 0
  ipSrc : IPAddress := 0
  ipDst : IPAddress := 0
  deriving DecidableEq, Repr

def ClickIp.layout : Layout ClickIp :=
  (nibbles.prod (u8.prod (u16.prod (u16.prod (u16.prod (u8.prod (u8.prod
    (u16.prod (u32.prod u32))))))))).equiv
    { toFun := fun ⟨⟨hl,v⟩,tos,len,id,off,ttl,p,sum,src,dst⟩ => ⟨hl,v,tos,len,id,off,ttl,p,sum,src,dst⟩
      invFun := fun ⟨hl,v,tos,len,id,off,ttl,p,sum,src,dst⟩ => ⟨⟨hl,v⟩,tos,len,id,off,ttl,p,sum,src,dst⟩
      left_inv := fun _ => rfl
      right_inv := fun _ => rfl }

structure ClickUdp where
  uhSport : UInt16 := 0
  uhDport : UInt16 := 0
  uhUlen : UInt16 := 0
  uhSum : UInt16 := 0
  deriving DecidableEq, Repr

def ClickUdp.layout : Layout ClickUdp :=
  (u16.prod (u16.prod (u16.prod u16))).equiv
    { toFun := fun ⟨sport,dport,ulen,sum⟩ => ⟨sport,dport,ulen,sum⟩
      invFun := fun ⟨sport,dport,ulen,sum⟩ => ⟨sport,dport,ulen,sum⟩
      left_inv := fun _ => rfl
      right_inv := fun _ => rfl }

structure RegistrationRequestPacketheader where
  type : UInt8 := 0
  flags : UInt8 := 0
  lifetime : UInt16 := 0
  homeAddr : IPAddress := 0
  homeAgent : IPAddress := 0
  coAddr : IPAddress := 0
  id1 : UInt32 := 0
  id2 : UInt32 := 0
  deriving DecidableEq, Repr

def RegistrationRequestPacketheader.layout : Layout RegistrationRequestPacketheader :=
  (u8.prod (u8.prod (u16.prod (u32.prod (u32.prod (u32.prod (u32.prod u32))))))).equiv
    { toFun := fun ⟨type,flags,lifetime,homeAddr,homeAgent,coAddr,id1,id2⟩ =>
        ⟨type,flags,lifetime,homeAddr,homeAgent,coAddr,id1,id2⟩
      invFun := fun ⟨type,flags,lifetime,homeAddr,homeAgent,coAddr,id1,id2⟩ =>
        ⟨type,flags,lifetime,homeAddr,homeAgent,coAddr,id1,id2⟩
      left_inv := fun _ => rfl
      right_inv := fun _ => rfl }

/-- The home agent and the foreign agent declare this structure under two names,
`RegistrationRequestReplyPacketheader` and `ForeignAgentReqProcessPacketheader`,
with the same members. -/
structure RegistrationRequestReplyPacketheader where
  type : UInt8 := 0
  code : UInt8 := 0
  lifetime : UInt16 := 0
  homeAddr : IPAddress := 0
  homeAgent : IPAddress := 0
  id1 : UInt32 := 0
  id2 : UInt32 := 0
  deriving DecidableEq, Repr

abbrev ForeignAgentReqProcessPacketheader := RegistrationRequestReplyPacketheader

def RegistrationRequestReplyPacketheader.layout : Layout RegistrationRequestReplyPacketheader :=
  (u8.prod (u8.prod (u16.prod (u32.prod (u32.prod (u32.prod u32)))))).equiv
    { toFun := fun ⟨type,code,lifetime,homeAddr,homeAgent,id1,id2⟩ =>
        ⟨type,code,lifetime,homeAddr,homeAgent,id1,id2⟩
      invFun := fun ⟨type,code,lifetime,homeAddr,homeAgent,id1,id2⟩ =>
        ⟨type,code,lifetime,homeAddr,homeAgent,id1,id2⟩
      left_inv := fun _ => rfl
      right_inv := fun _ => rfl }

/-- Router advertisement with the mobility agent extension. -/
structure AdvertisementPacketheader where
  type : UInt8 := 0
  code : UInt8 := 0
  checksum : UInt16 := 0
  addressNumbers : UInt8 := 0
  addrEntrySize : UInt8 := 0
  lifetime : UInt16 := 0
  address : IPAddress := 0
  pref : UInt32 := 0
  typeEx : UInt8 := 0
  length : UInt8 := 0
  sequenceNum : UInt16 := 0
  lifetimeEx : UInt16 := 0
  flagsReserved : UInt16 := 0
  addressEx : IPAddress := 0
  deriving DecidableEq, Repr

def AdvertisementPacketheader.layout : Layout AdvertisementPacketheader :=
  (u8.prod (u8.prod (u16.prod (u8.prod (u8.prod (u16.prod (u32.prod (u32.prod (u8.prod (u8.prod
    (u16.prod (u16.prod (u16.prod u32))))))))))))).equiv
    { toFun := fun ⟨type,code,checksum,numbers,entrySize,lifetime,address,pref,typeEx,length,seq,
          lifetimeEx,flags,addressEx⟩ =>
        ⟨type,code,checksum,numbers,entrySize,lifetime,address,pref,typeEx,length,seq,
          lifetimeEx,flags,addressEx⟩
      invFun := fun ⟨type,code,checksum,numbers,entrySize,lifetime,address,pref,typeEx,length,seq,
          lifetimeEx,flags,addressEx⟩ =>
        ⟨type,code,checksum,numbers,entrySize,lifetime,address,pref,typeEx,length,seq,
          lifetimeEx,flags,addressEx⟩
      left_inv := fun _ => rfl
      right_inv := fun _ => rfl }

structure SolicitationPacketheader where
  type : UInt8 := 0
  code : UInt8 := 0
  checksum : UInt16 := 0
  res : UInt32 := 0
  deriving DecidableEq, Repr

def SolicitationPacketheader.layout : Layout SolicitationPacketheader :=
  (u8.prod (u8.prod (u16.prod u32))).equiv
    { toFun := fun ⟨type,code,checksum,res⟩ => ⟨type,code,checksum,res⟩
      invFun := fun ⟨type,code,checksum,res⟩ => ⟨type,code,checksum,res⟩
      left_inv := fun _ => rfl
      right_inv := fun _ => rfl }

@[simp] theorem size_click_ip : ClickIp.layout.size = 20 := rfl
@[simp] theorem size_click_udp : ClickUdp.layout.size = 8 := rfl
@[simp] theorem size_request : RegistrationRequestPacketheader.layout.size = 24 := rfl
@[simp] theorem size_reply : RegistrationRequestReplyPacketheader.layout.size = 20 := rfl
@[simp] theorem size_advertisement : AdvertisementPacketheader.layout.size = 28 := rfl
@[simp] theorem size_solicitation : SolicitationPacketheader.layout.size = 8 := rfl

end ClickMobileIP
