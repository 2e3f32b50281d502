import Mathlib.Data.Nat.Bitwise
import Mathlib.Logic.Function.Basic

/-!
# The netfilter hook of sys2

`packet_hook` counts each packet by VLAN and by transport protocol. A buffer is its bytes from
`skb->head` on with offsets into them; the machine is little-endian.
-/

namespace PacketHook

/-- A `__be16` and a host `u16` hold each other's bytes swapped. -/
def htons (x : UInt16) : UInt16 := UInt16.ofNat (x.toNat % 256 * 256 + x.toNat / 256)

def ntohs (x : UInt16) : UInt16 := htons x

def ETH_P_IP : UInt16 := 0x0800
def ETH_P_8021Q : UInt16 := 0x8100
def ETH_P_IPV6 : UInt16 := 0x86DD
def VLAN_VID_MASK : ℕ := 0x0fff
def IPPROTO_ICMP : UInt8 := 1
def IPPROTO_TCP : UInt8 := 6
def IPPROTO_UDP : UInt8 := 17
def NF_ACCEPT : ℕ := 1

/-- `sizeof(struct vlan_hdr)`. -/
def vlanHlen : ℕ := 4

def vlanEntries : ℕ := 4094

structure SkBuff where
  head : ℕ → UInt8
  data : ℕ
  len : ℕ
  networkHeader : ℕ
  protocol : UInt16

namespace SkBuff

variable (skb : SkBuff)

def load16 (i : ℕ) : UInt16 :=
  UInt16.ofNat ((skb.head i).toNat + 256 * (skb.head (i + 1)).toNat)

/-- `vlan_hdr->h_vlan_TCI` of the header at `skb->data`. -/
def tci : UInt16 := skb.load16 skb.data

/-- `skb_pull`, which leaves a buffer that is too short alone. -/
def pull (len : ℕ) : SkBuff :=
  if len > skb.len then skb else { skb with data := skb.data + len, len := skb.len - len }

def resetNetworkHeader : SkBuff := { skb with networkHeader := skb.data }

/-- `ip_hdr(skb)->protocol`. -/
def ipProtocol : UInt8 := skb.head (skb.networkHeader + 9)

end SkBuff

/-- The counters. `vlanStats` is memory from the array's first entry on. -/
structure Stats where
  vlanStats : ℕ → UInt64
  ipPackets : UInt64
  tcpPackets : UInt64
  udpPackets : UInt64
  icmpPackets : UInt64
  otherPackets : UInt64

def Stats.zero : Stats := ⟨fun _ => 0, 0, 0, 0, 0, 0⟩

inductive Transport where
  | tcp
  | udp
  | icmp
  | other
  deriving DecidableEq, Repr

def Stats.bump (st : Stats) : Transport → Stats
  | .tcp => { st with tcpPackets := st.tcpPackets + 1 }
  | .udp => { st with udpPackets := st.udpPackets + 1 }
  | .icmp => { st with icmpPackets := st.icmpPackets + 1 }
  | .other => { st with otherPackets := st.otherPackets + 1 }

/-- The `switch` over `ip_header->protocol`. -/
def transport (protocol : UInt8) : Transport :=
  if protocol = IPPROTO_TCP then .tcp
  else if protocol = IPPROTO_UDP then .udp
  else if protocol = IPPROTO_ICMP then .icmp
  else .other

/-- What the IP protocol numbers stand for. -/
def classOf : UInt8 → Transport
  | 6 => .tcp
  | 17 => .udp
  | 1 => .icmp
  | _ => .other

theorem transport_eq_classOf (protocol : UInt8) : transport protocol = classOf protocol := by
  unfold classOf
  split
  · rfl
  · rfl
  · rfl
  · next htcp hudp hicmp => exact (if_neg htcp).trans ((if_neg hudp).trans (if_neg hicmp))

/-- The index into `vlan_stats` that a tag control word leads to, if any. -/
def vlanSlot (tci : UInt16) : Option ℕ :=
  let vlanId := (ntohs tci).toNat &&& VLAN_VID_MASK
  if vlanId ≥ 1 ∧ vlanId ≤ 4094 then some (vlanId - 1) else none

def Stats.bumpVlan (st : Stats) : Option ℕ → Stats
  | some i => { st with vlanStats := Function.update st.vlanStats i (st.vlanStats i + 1) }
  | none => st

/-- The part of `packet_hook` for tagged packets. -/
def untag (st : Stats) (skb : SkBuff) : Stats × SkBuff :=
  if skb.protocol = htons ETH_P_8021Q then
    (st.bumpVlan (vlanSlot skb.tci), (skb.pull vlanHlen).resetNetworkHeader)
  else (st, skb)

def SkBuff.isIp (skb : SkBuff) : Bool :=
  skb.protocol = htons ETH_P_IP || skb.protocol = htons ETH_P_IPV6

def packetHook (st : Stats) (skb : SkBuff) : Stats × SkBuff × ℕ :=
  let (st, skb) := untag st skb
  if skb.isIp then
    ({ st with ipPackets := st.ipPackets + 1 }.bump (transport skb.ipProtocol), skb, NF_ACCEPT)
  else (st.bump .other, skb, NF_ACCEPT)

def countAll (st : Stats) (skbs : List SkBuff) : Stats :=
  skbs.foldl (fun st skb => (packetHook st skb).1) st

def SkBuff.isTagged (skb : SkBuff) : Bool := skb.protocol = htons ETH_P_8021Q

theorem isIp_of_isTagged {skb : SkBuff} (h : skb.isTagged = true) : skb.isIp = false := by
  have hprot : skb.protocol = htons ETH_P_8021Q := of_decide_eq_true h
  rw [SkBuff.isIp, hprot]
  decide

@[simp] theorem protocol_pull (skb : SkBuff) (len : ℕ) :
    (skb.pull len).protocol = skb.protocol := by
  rw [SkBuff.pull]
  split <;> rfl

theorem untag_of_isTagged (st : Stats) {skb : SkBuff} (h : skb.isTagged = true) :
    untag st skb = (st.bumpVlan (vlanSlot skb.tci), (skb.pull vlanHlen).resetNetworkHeader) :=
  if_pos (of_decide_eq_true h)

theorem untag_of_not_isTagged (st : Stats) {skb : SkBuff} (h : skb.isTagged = false) :
    untag st skb = (st, skb) :=
  if_neg (of_decide_eq_false h)

theorem packetHook_of_isTagged (st : Stats) {skb : SkBuff} (h : skb.isTagged = true) :
    (packetHook st skb).1 = (st.bumpVlan (vlanSlot skb.tci)).bump .other := by
  have hip : ((skb.pull vlanHlen).resetNetworkHeader).isIp = false := by
    rw [← isIp_of_isTagged h, SkBuff.isIp, SkBuff.isIp, SkBuff.resetNetworkHeader, protocol_pull]
  simp [packetHook, untag_of_isTagged st h, hip]

theorem packetHook_of_isIp (st : Stats) {skb : SkBuff} (h : skb.isIp = true) :
    (packetHook st skb).1 =
      { st with ipPackets := st.ipPackets + 1 }.bump (transport skb.ipProtocol) := by
  have htag : skb.isTagged = false := by
    cases hcase : skb.isTagged with
    | false => rfl
    | true => rw [isIp_of_isTagged hcase] at h; contradiction
  simp [packetHook, untag_of_not_isTagged st htag, h]

theorem packetHook_of_neither (st : Stats) {skb : SkBuff} (htag : skb.isTagged = false)
    (hip : skb.isIp = false) : (packetHook st skb).1 = st.bump .other := by
  simp [packetHook, untag_of_not_isTagged st htag, hip]

def Stats.count (st : Stats) : Transport → UInt64
  | .tcp => st.tcpPackets
  | .udp => st.udpPackets
  | .icmp => st.icmpPackets
  | .other => st.otherPackets

@[simp] theorem count_bump (st : Stats) (t t' : Transport) :
    (st.bump t).count t' = st.count t' + if t = t' then 1 else 0 := by
  cases t <;> cases t' <;> simp [Stats.bump, Stats.count]

@[simp] theorem ipPackets_bump (st : Stats) (t : Transport) :
    (st.bump t).ipPackets = st.ipPackets := by
  cases t <;> rfl

@[simp] theorem vlanStats_bump (st : Stats) (t : Transport) :
    (st.bump t).vlanStats = st.vlanStats := by
  cases t <;> rfl

@[simp] theorem count_bumpVlan (st : Stats) (slot : Option ℕ) (t : Transport) :
    (st.bumpVlan slot).count t = st.count t := by
  cases slot <;> cases t <;> rfl

@[simp] theorem ipPackets_bumpVlan (st : Stats) (slot : Option ℕ) :
    (st.bumpVlan slot).ipPackets = st.ipPackets := by
  cases slot <;> rfl

theorem vlanStats_bumpVlan (st : Stats) (slot : Option ℕ) (i : ℕ) :
    (st.bumpVlan slot).vlanStats i = st.vlanStats i + if slot = some i then 1 else 0 := by
  cases slot with
  | none => simp [Stats.bumpVlan]
  | some j =>
      by_cases hij : i = j
      · subst i
        simp [Stats.bumpVlan]
      · simp [Stats.bumpVlan, hij, Ne.symm hij]

def SkBuff.counted (skb : SkBuff) : Transport :=
  if skb.isIp then transport skb.ipProtocol else .other

def SkBuff.slot (skb : SkBuff) : Option ℕ := if skb.isTagged then vlanSlot skb.tci else none

theorem counted_of_isTagged {skb : SkBuff} (h : skb.isTagged = true) : skb.counted = .other := by
  rw [SkBuff.counted, isIp_of_isTagged h, if_neg Bool.false_ne_true]

/-- Every packet adds one to one of the four totals. -/
theorem count_packetHook (st : Stats) (skb : SkBuff) (t : Transport) :
    (packetHook st skb).1.count t = st.count t + if skb.counted = t then 1 else 0 := by
  cases htag : skb.isTagged with
  | true =>
      rw [packetHook_of_isTagged st htag, count_bump, count_bumpVlan, counted_of_isTagged htag]
  | false =>
      cases hip : skb.isIp with
      | true =>
          rw [packetHook_of_isIp st hip, count_bump, SkBuff.counted, if_pos hip]
          cases t <;> rfl
      | false =>
          rw [packetHook_of_neither st htag hip, count_bump, SkBuff.counted, hip,
            if_neg Bool.false_ne_true]

theorem ipPackets_packetHook (st : Stats) (skb : SkBuff) :
    (packetHook st skb).1.ipPackets = st.ipPackets + if skb.isIp then 1 else 0 := by
  cases htag : skb.isTagged with
  | true => simp [packetHook_of_isTagged st htag, isIp_of_isTagged htag]
  | false =>
      cases hip : skb.isIp with
      | true => simp [packetHook_of_isIp st hip]
      | false => simp [packetHook_of_neither st htag hip]

theorem vlanStats_packetHook (st : Stats) (skb : SkBuff) (i : ℕ) :
    (packetHook st skb).1.vlanStats i =
      st.vlanStats i + if skb.slot = some i then 1 else 0 := by
  cases htag : skb.isTagged with
  | true =>
      rw [packetHook_of_isTagged st htag, vlanStats_bump, vlanStats_bumpVlan, SkBuff.slot,
        if_pos htag]
  | false =>
      cases hip : skb.isIp with
      | true => simp [packetHook_of_isIp st hip, SkBuff.slot, htag]
      | false => simp [packetHook_of_neither st htag hip, SkBuff.slot, htag]

end PacketHook
