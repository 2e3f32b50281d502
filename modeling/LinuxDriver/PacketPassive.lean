import LinuxDriver.PacketHook

/-!
# What packet_hook does to the packet

The hook accepts every packet. To look behind a VLAN tag it moves the data pointer of the buffer
and the network header, and never moves them back.
-/

namespace PacketHook

def Passive (st : Stats) (skb : SkBuff) : Prop :=
  (packetHook st skb).2.2 = NF_ACCEPT ∧ (packetHook st skb).2.1 = skb

theorem verdict_packetHook (st : Stats) (skb : SkBuff) :
    (packetHook st skb).2.2 = NF_ACCEPT := by
  unfold packetHook
  simp only
  split <;> rfl

theorem skb_packetHook (st : Stats) (skb : SkBuff) :
    (packetHook st skb).2.1 =
      if skb.isTagged then (skb.pull vlanHlen).resetNetworkHeader else skb := by
  have huntag : (packetHook st skb).2.1 = (untag st skb).2 := by
    unfold packetHook
    simp only
    split <;> rfl
  rw [huntag]
  cases htag : skb.isTagged with
  | true =>
      rw [untag_of_isTagged st htag]
      rfl
  | false =>
      rw [untag_of_not_isTagged st htag]
      rfl

/-- Stripping a tag shows in the offsets, unless the buffer is too short for it and its network
header is at its data. -/
theorem pull_resetNetworkHeader_eq_iff (skb : SkBuff) :
    (skb.pull vlanHlen).resetNetworkHeader = skb ↔
      skb.len < vlanHlen ∧ skb.networkHeader = skb.data := by
  unfold SkBuff.pull
  split_ifs with hshort
  · constructor
    · intro h
      exact ⟨hshort, (congrArg SkBuff.networkHeader h).symm⟩
    · rintro ⟨-, hnet⟩
      exact congrArg (fun n => { skb with networkHeader := n }) hnet.symm
  · constructor
    · intro h
      have hdata := congrArg SkBuff.data h
      simp only [SkBuff.resetNetworkHeader, vlanHlen] at hdata
      omega
    · rintro ⟨hlt, -⟩
      exact absurd hlt hshort

def SkBuff.Spared (skb : SkBuff) : Prop :=
  skb.protocol ≠ htons ETH_P_8021Q ∨ skb.len < vlanHlen ∧ skb.networkHeader = skb.data

theorem skb_packetHook_eq_self_iff (st : Stats) (skb : SkBuff) :
    (packetHook st skb).2.1 = skb ↔ skb.Spared := by
  rw [skb_packetHook, SkBuff.Spared]
  by_cases htag : skb.protocol = htons ETH_P_8021Q
  · rw [SkBuff.isTagged, decide_eq_true htag, if_pos rfl, pull_resetNetworkHeader_eq_iff]
    exact (or_iff_right (not_not.2 htag)).symm
  · rw [SkBuff.isTagged, decide_eq_false htag, if_neg Bool.false_ne_true]
    exact iff_of_true rfl (Or.inl htag)

/-- The hook is passive on untagged packets, and on a tagged one only if it is too short for
its tag and its network header is at its data. -/
theorem packet_hook_passive_iff (st : Stats) (skb : SkBuff) :
    Passive st skb ↔ skb.protocol ≠ htons ETH_P_8021Q ∨
      skb.len < vlanHlen ∧ skb.networkHeader = skb.data := by
  unfold Passive
  rw [and_iff_right (verdict_packetHook st skb)]
  exact skb_packetHook_eq_self_iff st skb

def taggedPacket : SkBuff := ⟨fun _ => 0, 14, 64, 14, htons ETH_P_8021Q⟩

theorem packet_hook_strips_tag :
    (packetHook Stats.zero taggedPacket).2.1.data = 18 ∧
      (packetHook Stats.zero taggedPacket).2.1.len = 60 ∧
      (packetHook Stats.zero taggedPacket).2.1.networkHeader = 18 ∧
      ¬ Passive Stats.zero taggedPacket := by
  have hdata : (packetHook Stats.zero taggedPacket).2.1.data = 18 := by decide
  have hlen : (packetHook Stats.zero taggedPacket).2.1.len = 60 := by decide
  have hnet : (packetHook Stats.zero taggedPacket).2.1.networkHeader = 18 := by decide
  refine ⟨hdata, hlen, hnet, ?_⟩
  rintro ⟨-, hsame⟩
  rw [hsame] at hdata
  exact absurd hdata (by decide)

end PacketHook
