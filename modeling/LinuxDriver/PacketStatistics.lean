import LinuxDriver.PacketHook

/-!
# The statistics of the packet hook

Over any sequence of packets the four totals share the packets among them, and the VLAN array
holds one counter for each usable VID. The classification is then compared with the transport
protocol that a frame really carries.
-/

namespace PacketHook

theorem counter_countAll {f : Stats → UInt64} {p : SkBuff → Bool}
    (hstep : ∀ st skb, f (packetHook st skb).1 = f st + if p skb then 1 else 0)
    (st : Stats) (skbs : List SkBuff) :
    f (countAll st skbs) = f st + UInt64.ofNat (skbs.countP p) := by
  induction skbs generalizing st with
  | nil => simp [countAll]
  | cons skb skbs ih =>
      change f (countAll (packetHook st skb).1 skbs) = _
      rw [ih, hstep, List.countP_cons]
      cases p skb with
      | true =>
          rw [if_pos rfl, if_pos rfl, UInt64.ofNat_add, UInt64.add_assoc]
          exact congrArg _ (UInt64.add_comm _ _)
      | false => simp

theorem counter_zero {f : Stats → UInt64} {p : SkBuff → Bool}
    (hstep : ∀ st skb, f (packetHook st skb).1 = f st + if p skb then 1 else 0)
    (hzero : f Stats.zero = 0) (skbs : List SkBuff) :
    f (countAll Stats.zero skbs) = UInt64.ofNat (skbs.countP p) := by
  rw [counter_countAll hstep, hzero, UInt64.zero_add]

def Stats.total (st : Stats) : UInt64 :=
  st.tcpPackets + st.udpPackets + st.icmpPackets + st.otherPackets

theorem total_packetHook (st : Stats) (skb : SkBuff) :
    (packetHook st skb).1.total = st.total + 1 := by
  have htcp := count_packetHook st skb .tcp
  have hudp := count_packetHook st skb .udp
  have hicmp := count_packetHook st skb .icmp
  have hother := count_packetHook st skb .other
  simp only [Stats.count] at htcp hudp hicmp hother
  rw [Stats.total, htcp, hudp, hicmp, hother, Stats.total]
  cases skb.counted <;> simp only [reduceCtorEq, if_true, if_false, UInt64.add_zero] <;> ac_rfl

/-- The 12 low bits of the tag control word, read in network order. -/
def SkBuff.vid (skb : SkBuff) : ℕ :=
  ((skb.head skb.data).toNat * 256 + (skb.head (skb.data + 1)).toNat) % 4096

theorem ntohs_load16 (skb : SkBuff) (i : ℕ) :
    (ntohs (skb.load16 i)).toNat = (skb.head i).toNat * 256 + (skb.head (i + 1)).toNat := by
  have hlo := (skb.head i).toNat_lt
  have hhi := (skb.head (i + 1)).toNat_lt
  have hload : (skb.load16 i).toNat =
      (skb.head i).toNat + 256 * (skb.head (i + 1)).toNat := by
    rw [SkBuff.load16, UInt16.toNat_ofNat', Nat.mod_eq_of_lt (by omega)]
  have hlow : (skb.load16 i).toNat % 256 = (skb.head i).toNat := by omega
  have hhigh : (skb.load16 i).toNat / 256 = (skb.head (i + 1)).toNat := by omega
  rw [ntohs, htons, hlow, hhigh, UInt16.toNat_ofNat', Nat.mod_eq_of_lt (by omega)]

/-- The hook finds the VID of the tag, whatever the host's byte order does to it. -/
theorem vlanSlot_tci (skb : SkBuff) :
    vlanSlot skb.tci = if skb.vid ≥ 1 ∧ skb.vid ≤ 4094 then some (skb.vid - 1) else none := by
  have hvid : (ntohs skb.tci).toNat &&& VLAN_VID_MASK = skb.vid := by
    rw [SkBuff.tci, ntohs_load16]
    exact Nat.and_two_pow_sub_one_eq_mod _ 12
  simp only [vlanSlot, hvid]

theorem vlanSlot_lt {tci : UInt16} {i : ℕ} (h : vlanSlot tci = some i) : i < vlanEntries := by
  simp only [vlanSlot] at h
  split at h
  · next hrange =>
      have heq := Option.some.inj h
      simp only [vlanEntries]
      omega
  · contradiction

theorem slot_eq_some_iff {skb : SkBuff} {v : ℕ} (hv : 1 ≤ v) (hv' : v ≤ 4094) :
    skb.slot = some (v - 1) ↔ skb.isTagged = true ∧ skb.vid = v := by
  cases htag : skb.isTagged with
  | false => simp [SkBuff.slot, htag]
  | true =>
      rw [SkBuff.slot, if_pos htag, vlanSlot_tci, and_iff_right rfl]
      split
      · simp only [Option.some.injEq]
        omega
      · next hout =>
          exact iff_of_false (by simp) fun h => hout (by omega)

theorem vlanStats_of_reserved (st : Stats) {skb : SkBuff} (h : skb.vid = 0 ∨ skb.vid = 4095) :
    (packetHook st skb).1.vlanStats = st.vlanStats := by
  funext i
  have hslot : skb.slot = none := by
    have hout : ¬(skb.vid ≥ 1 ∧ skb.vid ≤ 4094) := by omega
    rw [SkBuff.slot, vlanSlot_tci, if_neg hout, ite_self]
  rw [vlanStats_packetHook, hslot, if_neg (by simp), UInt64.add_zero]

/-- Over every sequence of packets: the four totals add up to its length; `ip_packets` counts
the packets with an IP protocol field, and the TCP, UDP and ICMP totals count among those
alone; entry `v - 1` of the VLAN array counts the tags with VID `v`, the reserved VIDs touch
no entry, and no tag leads out of the array. -/
theorem packet_statistics_conserved (skbs : List SkBuff) :
    (countAll Stats.zero skbs).total = UInt64.ofNat skbs.length ∧
    (countAll Stats.zero skbs).ipPackets = UInt64.ofNat (skbs.countP SkBuff.isIp) ∧
    (∀ t ≠ Transport.other, (countAll Stats.zero skbs).count t =
      UInt64.ofNat (skbs.countP fun skb => skb.isIp && classOf skb.ipProtocol = t)) ∧
    (∀ v, 1 ≤ v → v ≤ 4094 → (countAll Stats.zero skbs).vlanStats (v - 1) =
      UInt64.ofNat (skbs.countP fun skb => skb.isTagged && skb.vid = v)) ∧
    (∀ st skb, skb.vid = 0 ∨ skb.vid = 4095 →
      (packetHook st skb).1.vlanStats = st.vlanStats) ∧
    ∀ tci i, vlanSlot tci = some i → i < vlanEntries := by
  refine ⟨?_, ?_, ?_, ?_, fun st skb => vlanStats_of_reserved st, fun tci i => vlanSlot_lt⟩
  · have hall := counter_zero (f := Stats.total) (p := fun _ => true) total_packetHook rfl skbs
    rwa [List.countP_true] at hall
  · exact counter_zero ipPackets_packetHook rfl skbs
  · intro t ht
    refine counter_zero (f := fun st => st.count t) (fun st skb => ?_) (by cases t <;> rfl) skbs
    rw [count_packetHook, SkBuff.counted, transport_eq_classOf]
    cases skb.isIp with
    | true => simp
    | false => simp [ht.symm]
  · intro v hv hv'
    refine counter_zero (f := fun st => st.vlanStats (v - 1)) (fun st skb => ?_) rfl skbs
    rw [vlanStats_packetHook]
    simp only [slot_eq_some_iff hv hv', Bool.and_eq_true, decide_eq_true_eq]

inductive Family where
  | ipv4
  | ipv6
  deriving DecidableEq, Repr

namespace Family

def etherType : Family → UInt16
  | .ipv4 => ETH_P_IP
  | .ipv6 => ETH_P_IPV6

def headerLen : Family → ℕ
  | .ipv4 => 20
  | .ipv6 => 40

/-- The protocol field of IPv4, the next-header field of IPv6. -/
def protocolOffset : Family → ℕ
  | .ipv4 => 9
  | .ipv6 => 6

end Family

/-- The offset from `skb->data` to the IP header: a tag stands in front of it. -/
def ipOffset (tag : Option UInt16) : ℕ := if tag.isSome then vlanHlen else 0

/-- A frame with an IP packet, as the receive path hands it to the hook: untagged, or with one
802.1Q tag at `skb->data`. `tag` is the control word in host order. -/
structure Frame where
  skb : SkBuff
  family : Family
  tag : Option UInt16
  link : match tag with
    | none => skb.protocol = htons family.etherType ∧ skb.networkHeader = skb.data
    | some tci => skb.protocol = htons ETH_P_8021Q ∧ ntohs skb.tci = tci ∧
        ntohs (skb.load16 (skb.data + 2)) = family.etherType
  room : ipOffset tag + family.headerLen ≤ skb.len

namespace Frame

variable (fr : Frame)

def ipByte (i : ℕ) : UInt8 := fr.skb.head (fr.skb.data + ipOffset fr.tag + i)

def protocol : UInt8 := fr.ipByte fr.family.protocolOffset

def vlanEntry : Option ℕ :=
  fr.tag.bind fun tci =>
    if tci.toNat % 4096 = 0 ∨ tci.toNat % 4096 = 4095 then none
    else some (tci.toNat % 4096 - 1)

end Frame

/-- The counters after a frame counted by what it carries. -/
def Stats.afterFrame (st : Stats) (fr : Frame) : Stats :=
  { st.bumpVlan fr.vlanEntry with ipPackets := st.ipPackets + 1 }.bump (classOf fr.protocol)

theorem bump_inj (st : Stats) {t t' : Transport} : st.bump t = st.bump t' ↔ t = t' := by
  constructor
  · intro heq
    have hcount := congrArg (fun st => Stats.count st t) heq
    simp only [count_bump, if_pos] at hcount
    by_contra hne
    rw [if_neg (Ne.symm hne)] at hcount
    have hone : (1 : UInt64) = 0 := UInt64.add_right_inj _ |>.1 hcount
    exact absurd hone (by decide)
  · exact congrArg st.bump

theorem packetHook_of_tag (st : Stats) {fr : Frame} {tci : UInt16} (htag : fr.tag = some tci) :
    (packetHook st fr.skb).1.ipPackets = st.ipPackets := by
  have hlink := fr.link
  rw [htag] at hlink
  have htagged : fr.skb.isTagged = true := decide_eq_true hlink.1
  rw [packetHook_of_isTagged st htagged, ipPackets_bump, ipPackets_bumpVlan]

theorem packetHook_of_untagged (st : Stats) {fr : Frame} (htag : fr.tag = none) :
    (packetHook st fr.skb).1 =
      { st with ipPackets := st.ipPackets + 1 }.bump (classOf (fr.ipByte 9)) := by
  have hlink := fr.link
  rw [htag] at hlink
  obtain ⟨hprot, hnet⟩ := hlink
  have hip : fr.skb.isIp = true := by
    rw [SkBuff.isIp, hprot]
    cases fr.family <;> decide
  have hbyte : fr.skb.ipProtocol = fr.ipByte 9 := by
    rw [SkBuff.ipProtocol, Frame.ipByte, hnet, htag]
    rfl
  rw [packetHook_of_isIp st hip, hbyte, transport_eq_classOf]

/-- The hook counts a frame by what it carries exactly when the frame is untagged and either
IPv4 or IPv6 with a source address that stands in for its next header. -/
theorem packet_class_iff (st : Stats) (fr : Frame) :
    (packetHook st fr.skb).1 = st.afterFrame fr ↔
      fr.tag = none ∧
        (fr.family = .ipv4 ∨ classOf (fr.ipByte 9) = classOf (fr.ipByte 6)) := by
  cases htag : fr.tag with
  | some tci =>
      refine iff_of_false (fun heq => ?_) (by simp)
      have hip := congrArg Stats.ipPackets heq
      rw [packetHook_of_tag st htag, Stats.afterFrame, ipPackets_bump] at hip
      have hzero : (0 : UInt64) = 1 :=
        (UInt64.add_right_inj st.ipPackets).1 ((UInt64.add_zero _).trans hip)
      exact absurd hzero (by decide)
  | none =>
      have hafter : st.afterFrame fr =
          { st with ipPackets := st.ipPackets + 1 }.bump (classOf fr.protocol) := by
        rw [Stats.afterFrame, Frame.vlanEntry, htag]
        rfl
      rw [packetHook_of_untagged st htag, hafter, bump_inj, Frame.protocol]
      cases fr.family with
      | ipv4 => simp [Family.protocolOffset]
      | ipv6 => simp [Family.protocolOffset]

def bufferOf (bytes : List UInt8) (protocol : UInt16) : SkBuff where
  head i := bytes.getD i 0
  data := 0
  len := 64
  networkHeader := 0
  protocol := protocol

def ipv6Tcp : Frame where
  skb := bufferOf [0x60, 0, 0, 0, 0, 20, 6, 64, 0x20, 0x01, 0x0d, 0xb8, 0, 0, 0, 0, 0, 0, 0, 0,
    0, 0, 0, 1] (htons ETH_P_IPV6)
  family := .ipv6
  tag := none
  link := by decide
  room := by decide

def taggedTcp : Frame where
  skb := bufferOf [0x00, 0x05, 0x08, 0x00, 0x45, 0, 0, 40, 0, 0, 0, 0, 64, 6, 0, 0, 10, 0, 0, 1,
    10, 0, 0, 2] (htons ETH_P_8021Q)
  family := .ipv4
  tag := some 5
  link := by decide
  room := by decide

theorem tcp_frames_miscounted :
    (ipv6Tcp.protocol = IPPROTO_TCP ∧
      (packetHook Stats.zero ipv6Tcp.skb).1.tcpPackets = 0 ∧
      (packetHook Stats.zero ipv6Tcp.skb).1.icmpPackets = 1 ∧
      (packetHook Stats.zero ipv6Tcp.skb).1 ≠ Stats.zero.afterFrame ipv6Tcp) ∧
    (taggedTcp.protocol = IPPROTO_TCP ∧
      (packetHook Stats.zero taggedTcp.skb).1.ipPackets = 0 ∧
      (packetHook Stats.zero taggedTcp.skb).1.otherPackets = 1 ∧
      (packetHook Stats.zero taggedTcp.skb).1 ≠ Stats.zero.afterFrame taggedTcp) := by
  refine ⟨⟨rfl, rfl, rfl, fun heq => ?_⟩, rfl, rfl, rfl, fun heq => ?_⟩
  · exact absurd (congrArg Stats.tcpPackets heq) (by decide)
  · exact absurd (congrArg Stats.ipPackets heq) (by decide)

end PacketHook
