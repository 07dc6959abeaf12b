import Ralink.HwNat.ExtIf

/-! A frame that goes into the engine with its tag and comes back unchanged: when the two handlers
together leave the packet as it was. Two of the interfaces have one port. -/
namespace Ralink.HwNat
open ByteStore

def PortsDistinct (cfg : ExtBuild) : Prop :=
  ∀ p d d', (p, d) ∈ dstPorts cfg → (p, d') ∈ dstPorts cfg → d = d'

section Ports

variable {cfg : ExtBuild} {net : Net} {d d' : NetDev} {p : Nat}

theorem ownerOf_ra (cfg : ExtBuild) (i : Fin 16) :
    ownerOf cfg (DP_RA i) = .ra i ∨ cfg.wds ∧ i = 7 := by
  by_cases hw : cfg.wds
  · rcases eq_or_ne i 7 with rfl | hi
    · exact .inr ⟨hw, rfl⟩
    · left
      revert i
      simp only [ownerOf, DP_RA, hw]
      decide
  · left
    simp only [ownerOf, DP_RA, hw]
    revert i
    decide

theorem ownerOf_wds (hw : cfg.wds) (i : Fin 4) : ownerOf cfg (DP_WDS i) = .wds i := by
  simp only [ownerOf, hw]
  revert i
  decide

theorem ownerOf_rai (cfg : ExtBuild) (i : Fin 16) : ownerOf cfg (DP_RAI i) = .rai i := by
  simp only [ownerOf, DP_RAI]
  revert i
  cases cfg.wds <;> decide

theorem mem_raPorts (h : (p, d) ∈ raPorts cfg) :
    ∃ i, p = DP_RA i ∧ d = .ra i ∧ (i ≠ 0 → cfg.mbss) := by
  simp only [raPorts, List.mem_append, List.mem_singleton, Prod.mk.injEq] at h
  rcases h with ⟨rfl, rfl⟩ | h
  · exact ⟨0, rfl, rfl, fun h0 => absurd rfl h0⟩
  · split at h
    · next hm =>
      rcases List.mem_append.mp h with h | h
      · obtain ⟨i, -, hi⟩ := List.mem_map.mp h
        obtain ⟨rfl, rfl⟩ := Prod.mk.inj hi
        exact ⟨i, rfl, rfl, fun _ => hm⟩
      · split at h
        · obtain ⟨i, -, hi⟩ := List.mem_map.mp h
          obtain ⟨rfl, rfl⟩ := Prod.mk.inj hi
          exact ⟨i, rfl, rfl, fun _ => hm⟩
        · cases h
    · cases h

theorem mem_laterPorts (h : (p, d) ∈ laterPorts cfg) :
    ownerOf cfg p = d ∧ 17 < p ∧ ∀ i, d ≠ .ra i := by
  simp only [laterPorts, wdsPorts, raiPorts, onePort, List.mem_append, List.mem_ite_nil_right, List.mem_singleton,
    Prod.mk.injEq, List.mem_map] at h
  rcases h with ⟨hw, i, -, rfl, rfl⟩ | ⟨-, rfl, rfl⟩ | ⟨-, rfl, rfl⟩ |
    ⟨-, ⟨rfl, rfl⟩ | ⟨-, i, -, rfl, rfl⟩⟩ | ⟨-, rfl, rfl⟩ | ⟨-, rfl, rfl⟩ | ⟨rfl, rfl⟩ |
    ⟨-, rfl, rfl⟩ | ⟨rfl, rfl⟩
  · refine ⟨ownerOf_wds hw i, ?_, fun _ => nofun⟩
    revert i
    decide
  · exact ⟨by simp [ownerOf, DP_APCLI0], by decide, fun _ => nofun⟩
  · exact ⟨by simp [ownerOf, DP_APCLI0, DP_MESH0], by decide, fun _ => nofun⟩
  · exact ⟨ownerOf_rai cfg 0, by decide, fun _ => nofun⟩
  · refine ⟨ownerOf_rai cfg i, ?_, fun _ => nofun⟩
    unfold DP_RAI
    omega
  · exact ⟨by simp [ownerOf, DP_APCLI0, DP_MESH0, DP_APCLII0], by decide, fun _ => nofun⟩
  · exact ⟨by simp [ownerOf, DP_APCLI0, DP_MESH0, DP_APCLII0, DP_MESHI0], by decide,
      fun _ => nofun⟩
  · exact ⟨by simp [ownerOf, DP_APCLI0, DP_MESH0, DP_APCLII0, DP_MESHI0, DP_GMAC], by decide,
      fun _ => nofun⟩
  · exact ⟨by simp [ownerOf, DP_APCLI0, DP_MESH0, DP_APCLII0, DP_MESHI0, DP_GMAC, DP_GMAC2],
      by decide, fun _ => nofun⟩
  · exact ⟨by simp [ownerOf, DP_APCLI0, DP_MESH0, DP_APCLII0, DP_MESHI0, DP_GMAC, DP_GMAC2,
      DP_PCI], by decide, fun _ => nofun⟩

theorem mem_dstPorts (h : (p, d) ∈ dstPorts cfg) :
    0 < p ∧ (cfg.mbss ∧ cfg.wds ∧ d = .ra 7 → p = DP_RA 7) ∧
      (¬ (cfg.mbss ∧ cfg.wds ∧ d = .ra 7) → ownerOf cfg p = d) := by
  rw [dstPorts] at h
  rcases List.mem_append.mp h with h | h
  · obtain ⟨i, rfl, rfl, hm⟩ := mem_raPorts h
    refine ⟨by unfold DP_RA; omega, ?_, ?_⟩
    · rintro ⟨-, -, hi⟩
      rw [NetDev.ra.inj hi]
    · intro hover
      rcases ownerOf_ra cfg i with ho | ⟨hw, rfl⟩
      · exact ho
      · exact absurd ⟨hm (by decide), hw, rfl⟩ hover
  · obtain ⟨ho, hp, hra⟩ := mem_laterPorts h
    exact ⟨by omega, fun hover => absurd hover.2.2 (hra 7), fun _ => ho⟩

theorem wds1_mem (hw : cfg.wds) : (DP_RA 7, .wds 1) ∈ laterPorts cfg := by
  simp only [laterPorts, wdsPorts, raiPorts, onePort, List.mem_append, List.mem_ite_nil_right, List.mem_map]
  exact .inl ⟨hw, 1, by decide, rfl⟩

theorem ra7_mem (hm : cfg.mbss) : (DP_RA 7, .ra 7) ∈ dstPorts cfg := by
  rw [dstPorts]
  refine List.mem_append_left _ ?_
  simp only [raPorts, List.mem_append, List.mem_ite_nil_right, List.mem_map]
  exact .inr ⟨hm, .inl ⟨7, by decide, rfl⟩⟩

theorem portsDistinct_iff : PortsDistinct cfg ↔ ¬ (cfg.mbss ∧ cfg.wds) := by
  constructor
  · rintro h ⟨hm, hw⟩
    have hwds : (DP_RA 7, .wds 1) ∈ dstPorts cfg := by
      rw [dstPorts]
      exact List.mem_append_right _ (wds1_mem hw)
    exact absurd (h _ _ _ (ra7_mem hm) hwds) (by decide)
  · intro hno p d d' h h'
    have ho := (mem_dstPorts h).2.2 fun hover => hno ⟨hover.1, hover.2.1⟩
    have ho' := (mem_dstPorts h').2.2 fun hover => hno ⟨hover.1, hover.2.1⟩
    exact ho.symm.trans ho'

/-! The array that `PpeSetDstPort` fills. -/

theorem mem_looked {v : Option NetDev} {l : List (Nat × NetDev)}
    (h : (p, v) ∈ l.map fun e => (e.1, net.raDevGetByName e.2)) :
    ∃ d, (p, d) ∈ l ∧ v = net.raDevGetByName d := by
  obtain ⟨⟨q, d⟩, he, hv⟩ := List.mem_map.mp h
  obtain ⟨rfl, rfl⟩ := Prod.mk.inj hv
  exact ⟨d, he, rfl⟩

theorem dstPort_wds1 (hw : cfg.wds) :
    ppeSetDstPort cfg net (DP_RA 7) = net.raDevGetByName (.wds 1) := by
  rw [ppeSetDstPort, dstPorts, List.map_append, Assoc.fill_append]
  refine Assoc.fill_of_mem (List.mem_map.mpr ⟨_, wds1_mem hw, rfl⟩) fun v hv => ?_
  obtain ⟨d, hd, rfl⟩ := mem_looked hv
  have howner := (mem_laterPorts (wds1_mem hw)).1
  rw [← (mem_laterPorts hd).1, howner]

theorem dstPort_of_mem (h : (p, d) ∈ dstPorts cfg) (hover : ¬ (cfg.mbss ∧ cfg.wds ∧ d = .ra 7)) :
    ppeSetDstPort cfg net p = net.raDevGetByName d := by
  have ho := (mem_dstPorts h).2.2 hover
  by_cases hslip : cfg.wds ∧ p = DP_RA 7
  · obtain ⟨hw, rfl⟩ := hslip
    rw [dstPort_wds1 hw, ← ho, (mem_laterPorts (wds1_mem hw)).1]
  · refine Assoc.fill_of_mem (List.mem_map.mpr ⟨_, h, rfl⟩) fun v hv => ?_
    obtain ⟨d', hd', rfl⟩ := mem_looked hv
    have ho' := (mem_dstPorts hd').2.2 fun hover' =>
      hslip ⟨hover'.2.1, (mem_dstPorts hd').2.1 hover'⟩
    rw [← ho, ho']

theorem dstPort_some (h : ppeSetDstPort cfg net p = some d) :
    net.registered d ∧ (p, d) ∈ dstPorts cfg ∧ ¬ (cfg.mbss ∧ cfg.wds ∧ d = .ra 7) := by
  have hget : ∀ {d'}, net.raDevGetByName d' = some d → net.registered d ∧ d' = d := by
    intro d' hd'
    unfold Net.raDevGetByName at hd'
    split at hd'
    · next hr =>
      obtain rfl := Option.some.inj hd'
      exact ⟨hr, rfl⟩
    · cases hd'
  by_cases hmem : p ∈ Assoc.keys (dstPorts cfg)
  · obtain ⟨⟨q, d'⟩, hd', rfl⟩ := List.mem_map.mp hmem
    by_cases hover : cfg.mbss ∧ cfg.wds ∧ d' = .ra 7
    · -- the device that is looked up later has taken the place
      have hw := hover.2.1
      have hp := (mem_dstPorts hd').2.1 hover
      dsimp only at h
      rw [hp, dstPort_wds1 hw] at h
      obtain ⟨hr, rfl⟩ := hget h
      refine ⟨hr, ?_, by simp⟩
      rw [dstPorts]
      exact List.mem_append_right _ (hp ▸ wds1_mem hw)
    · rw [dstPort_of_mem hd' hover] at h
      obtain ⟨hr, rfl⟩ := hget h
      exact ⟨hr, hd', hover⟩
  · have hnone : ppeSetDstPort cfg net p = none := by
      refine Assoc.fill_of_notMem fun hk => hmem ?_
      simpa [Assoc.keys, List.map_map] using hk
    rw [hnone] at h
    cases h

theorem rxPorts_lt (h : p ∈ rxPorts cfg) : p < MAX_IF_NUM := by
  simp only [rxPorts, List.mem_append, List.mem_ite_nil_right, List.mem_singleton,
    List.mem_map] at h
  unfold MAX_IF_NUM
  rcases h with (((((((rfl | ⟨-, i, -, rfl⟩) | ⟨-, i, -, rfl⟩) | ⟨-, rfl⟩) | ⟨-, rfl⟩) |
    ⟨-, rfl | ⟨-, i, -, rfl⟩⟩) | ⟨-, rfl⟩) | ⟨-, rfl⟩) | ⟨-, rfl⟩
  all_goals try decide
  · unfold DP_RA
    omega
  · revert i
    decide
  · unfold DP_RAI
    omega

theorem virIfIdx_of_knows (hr : net.registered d) (hk : cfg.Knows d) :
    virIfIdx cfg (ppeSetDstPort cfg net) d < MAX_IF_NUM ∧
      ppeSetDstPort cfg net (virIfIdx cfg (ppeSetDstPort cfg net) d) = some d := by
  obtain ⟨⟨p, hp, hmem⟩, hover⟩ := hk
  have hdst : ppeSetDstPort cfg net p = some d := by
    rw [dstPort_of_mem hmem hover]
    exact if_pos hr
  unfold virIfIdx
  cases hf : (rxPorts cfg).find? fun port => ppeSetDstPort cfg net port = some d with
  | none => exact absurd hdst (by simpa using List.find?_eq_none.mp hf p hp)
  | some q => exact ⟨rxPorts_lt (List.mem_of_find?_eq_some hf), by simpa using List.find?_some hf⟩

theorem dstPort_virIfIdx (h : ¬ (net.registered d ∧ cfg.Knows d)) :
    ppeSetDstPort cfg net (virIfIdx cfg (ppeSetDstPort cfg net) d) = none := by
  unfold virIfIdx
  cases hf : (rxPorts cfg).find? fun port => ppeSetDstPort cfg net port = some d with
  | none =>
    cases hzero : ppeSetDstPort cfg net 0 with
    | none => exact hzero
    | some d' => exact absurd (mem_dstPorts (dstPort_some hzero).2.1).1 (Nat.lt_irrefl 0)
  | some q =>
    have hdst : ppeSetDstPort cfg net q = some d := by simpa using List.find?_some hf
    obtain ⟨hr, hmem, hover⟩ := dstPort_some hdst
    exact absurd ⟨hr, ⟨q, List.mem_of_find?_eq_some hf, hmem⟩, hover⟩ h

theorem dstPort_gmac : ppeSetDstPort cfg net DP_GMAC = net.raDevGetByName (.eth 2) := by
  have hmem : (DP_GMAC, .eth 2) ∈ dstPorts cfg := by
    simp only [dstPorts, laterPorts, List.mem_append, List.mem_singleton, true_or, or_true]
  exact dstPort_of_mem hmem (by simp)

end Ports

section Bytes

variable {skb r : SkBuff} {tag : Nat} {frame : List UInt8}

theorem vlanPutTag_length (tag : Nat) (h : 2 * ETH_ALEN ≤ frame.length) :
    (vlanPutTag frame tag).length = frame.length + VLAN_HLEN := by
  simp only [vlanPutTag, ETH_ALEN, VLAN_HLEN] at h ⊢
  simp
  omega

section

variable (hr : r.frame = vlanPutTag frame tag)
include hr

theorem tagged_bytes (h : ETH_HLEN ≤ frame.length) (htag : tag < 256) :
    r.len + ETH_HLEN = frame.length + VLAN_HLEN ∧
      be16 r.mem (r.mac + 2 * ETH_ALEN) = ETH_P_8021Q ∧ be16 r.mem (r.mac + ETH_HLEN) = tag ∧
      readBytes r.mem r.mac (2 * ETH_ALEN) = frame.take (2 * ETH_ALEN) ∧
      readBytes r.mem (r.mac + (2 * ETH_ALEN + VLAN_HLEN)) (frame.length - 2 * ETH_ALEN) =
        frame.drop (2 * ETH_ALEN) := by
  have hmin : 2 * ETH_ALEN ≤ frame.length := le_trans (by decide) h
  have hlen : r.len + ETH_HLEN = frame.length + VLAN_HLEN := by
    have hl := congrArg List.length hr
    rwa [SkBuff.frame, length_readBytes, vlanPutTag_length _ hmin] at hl
  have hsplit : r.len + ETH_HLEN = 2 * ETH_ALEN + VLAN_HLEN + (frame.length - 2 * ETH_ALEN) := by
    omega
  rw [SkBuff.frame, hsplit, readBytes_add, readBytes_add, vlanPutTag] at hr
  obtain ⟨hhead, hrest⟩ := List.append_inj hr (by simp [ETH_ALEN, VLAN_HLEN] at hmin ⊢; omega)
  obtain ⟨haddr, htags⟩ := List.append_inj hhead (by simpa using hmin)
  have hfour : readBytes r.mem (r.mac + 2 * ETH_ALEN) VLAN_HLEN =
      [r.mem (r.mac + 2 * ETH_ALEN), r.mem (r.mac + 2 * ETH_ALEN + 1), r.mem (r.mac + ETH_HLEN),
        r.mem (r.mac + ETH_HLEN + 1)] := rfl
  rw [hfour] at htags
  simp only [List.cons.injEq, and_true] at htags
  obtain ⟨h0, h1, h2, h3⟩ := htags
  refine ⟨hlen, ?_, ?_, haddr, hrest⟩
  · rw [be16, h0, h1]
    rfl
  · rw [be16, h2, h3]
    simp only [UInt8.toNat_ofNat']
    omega

theorem removeVlanTag_own (h : ETH_HLEN ≤ frame.length) (htag : tag < 256)
    (hcloned : r.cloned = false) (hshared : r.shared = false) (copy : Bool) :
    (removeVlanTag r copy).1 = tag ∧ (removeVlanTag r copy).2.frame = frame ∧
      (removeVlanTag r copy).2.AtLayer3 ∧ (removeVlanTag r copy).2.dev = r.dev := by
  obtain ⟨hlen, hproto, htci, haddr, hrest⟩ := tagged_bytes hr h htag
  have hpull : ¬ VLAN_HLEN > r.len := by
    unfold VLAN_HLEN ETH_HLEN at *
    omega
  simp only [removeVlanTag, hproto, htci, hcloned, hshared, SkBuff.skbPull, hpull, ne_eq,
    not_true_eq_false, Bool.false_eq_true, or_self, if_false]
  refine ⟨trivial, ?_, ?_, trivial⟩
  · -- the addresses are where they have been moved to, the rest is where it was
    have hmin : 2 * ETH_ALEN ≤ frame.length := le_trans (by decide) h
    have hsplit : r.len - VLAN_HLEN + ETH_HLEN = 2 * ETH_ALEN + (frame.length - 2 * ETH_ALEN) := by
      omega
    have hmoved := readBytes_writeBytes r.mem (r.mac + VLAN_HLEN)
      (readBytes r.mem r.mac (2 * ETH_ALEN))
    rw [length_readBytes] at hmoved
    rw [SkBuff.frame, hsplit, readBytes_add, hmoved, haddr, readBytes_writeBytes_disjoint
      (.inr (by rw [← haddr, length_readBytes]))]
    rw [show r.mac + VLAN_HLEN + 2 * ETH_ALEN = r.mac + (2 * ETH_ALEN + VLAN_HLEN) by omega, hrest,
      List.take_append_drop]
  · rfl

theorem removeVlanTag_other (h : ETH_HLEN ≤ frame.length) (htag : tag < 256)
    (hother : ¬ (r.cloned = false ∧ r.shared = false)) (copy : Bool) :
    (removeVlanTag r copy).2 = r := by
  obtain ⟨-, hproto, -⟩ := tagged_bytes hr h htag
  have hsome : r.cloned = true ∨ r.shared = true := by
    cases hc : r.cloned <;> cases hs : r.shared <;> simp_all
  simp only [removeVlanTag, hproto, ne_eq, not_true_eq_false, if_false, hsome, if_true]

end

end Bytes

/-- What the two handlers leave of a packet: the caller keeps it as it is, or it goes to the
engine and, back as `r`, has its bytes, its length and its device again. -/
def PingPong (cfg : ExtBuild) (net : Net) (skb r : SkBuff) (copy : Bool) : Prop :=
  match ppeExtIfRxHandler cfg (ppeSetDstPort cfg net) skb with
  | .pass skb' => skb' = skb
  | .xmit dev _ =>
    let q := ppeExtIfPingPongHandler cfg net (ppeSetDstPort cfg net) r copy
    dev.isSome ∧ q.frame = skb.frame ∧ q.len = skb.len ∧ q.AtLayer3 ∧ q.dev = skb.dev

/-- `r` is the frame that was sent, unchanged and received from the engine: a packet of its
own device with its data behind the header. -/
def ComesBack (cfg : ExtBuild) (net : Net) (skb r : SkBuff) : Prop :=
  r.AtLayer3 ∧ (r.dev = .eth 2 ∨ r.dev = .eth 3) ∧
    ∀ dev frame, ppeExtIfRxHandler cfg (ppeSetDstPort cfg net) skb = .xmit dev frame →
      r.frame = frame

section Handlers

variable {cfg : ExtBuild} {net : Net} {skb r : SkBuff}

theorem frame_eq (hat : skb.AtLayer3) :
    readBytes skb.mem (skb.data - ETH_HLEN) (skb.len + ETH_HLEN) = skb.frame := by
  rw [hat, Nat.add_sub_cancel]
  rfl

theorem pingPongHandler_eq (net : Net) (r : SkBuff) (dstPort : Nat → Option NetDev) (copy : Bool)
    (hbuilt : cfg.hwNatWifi ∨ cfg.hwNatPci) :
    (ppeExtIfPingPongHandler cfg net dstPort r copy).frame = (removeVlanTag r copy).2.frame ∧
      (ppeExtIfPingPongHandler cfg net dstPort r copy).len = (removeVlanTag r copy).2.len ∧
      ((ppeExtIfPingPongHandler cfg net dstPort r copy).AtLayer3 ↔
        (removeVlanTag r copy).2.AtLayer3) ∧
      (ppeExtIfPingPongHandler cfg net dstPort r copy).dev =
        (if (removeVlanTag r copy).1 < MAX_IF_NUM then dstPort (removeVlanTag r copy).1
          else none).getD (removeVlanTag r copy).2.dev := by
  rw [ppeExtIfPingPongHandler, if_neg (not_not.mpr hbuilt)]
  dsimp only
  cases if (removeVlanTag r copy).1 < MAX_IF_NUM then dstPort (removeVlanTag r copy).1 else none with
  | none => exact ⟨rfl, rfl, Iff.rfl, rfl⟩
  | some d => exact ⟨rfl, rfl, Iff.rfl, rfl⟩

theorem len_of_frame (h : r.frame = skb.frame) : r.len = skb.len := by
  have hlen := congrArg List.length h
  simp only [SkBuff.frame, length_readBytes] at hlen
  omega

theorem pingPong_of_sent (copy : Bool) (hat : skb.AtLayer3)
    (hdev : skb.dev ≠ .eth 2 ∧ skb.dev ≠ .eth 3) (hback : ComesBack cfg net skb r)
    (hbuilt : cfg.hwNatWifi ∨ cfg.hwNatPci) (hproto : isPpeProtocol skb.protocol = true) :
    PingPong cfg net skb r copy ↔
      net.registered (.eth 2) ∧ net.registered skb.dev ∧ cfg.Knows skb.dev ∧
        r.cloned = false ∧ r.shared = false := by
  have hsent : ppeExtIfRxHandler cfg (ppeSetDstPort cfg net) skb =
      .xmit (net.raDevGetByName (.eth 2))
        (vlanPutTag skb.frame (virIfIdx cfg (ppeSetDstPort cfg net) skb.dev)) := by
    rw [ppeExtIfRxHandler, if_neg (not_not.mpr hbuilt), if_neg (not_not.mpr hproto), dstPort_gmac,
      frame_eq hat]
  have hframe := hback.2.2 _ _ hsent
  have hlen : ETH_HLEN ≤ skb.frame.length := by
    rw [SkBuff.frame, length_readBytes]
    exact Nat.le_add_left _ _
  have htag : virIfIdx cfg (ppeSetDstPort cfg net) skb.dev < MAX_IF_NUM := by
    unfold virIfIdx
    cases hf : (rxPorts cfg).find? fun port => ppeSetDstPort cfg net port = some skb.dev with
    | none => decide
    | some q => exact rxPorts_lt (List.mem_of_find?_eq_some hf)
  have hbyte : virIfIdx cfg (ppeSetDstPort cfg net) skb.dev < 256 := lt_trans htag (by decide)
  have hgmac : (net.raDevGetByName (.eth 2)).isSome = true ↔ net.registered (.eth 2) = true := by
    unfold Net.raDevGetByName
    split <;> simp_all
  obtain ⟨hqf, hql, hqa, hqd⟩ := pingPongHandler_eq net r (ppeSetDstPort cfg net)
    copy hbuilt
  unfold PingPong
  rw [hsent]
  simp only [hgmac, hqf, hql, hqa, hqd]
  refine and_congr_right fun _ => ?_
  by_cases hown : r.cloned = false ∧ r.shared = false
  · obtain ⟨hidx, hf, ha, hd⟩ := removeVlanTag_own hframe hlen hbyte hown.1 hown.2 copy
    rw [hidx, if_pos htag, hd]
    by_cases hknown : net.registered skb.dev ∧ cfg.Knows skb.dev
    · have hdst := (virIfIdx_of_knows hknown.1 hknown.2).2
      rw [hdst]
      exact iff_of_true ⟨hf, len_of_frame hf, ha, rfl⟩ ⟨hknown.1, hknown.2, hown⟩
    · rw [dstPort_virIfIdx hknown]
      refine iff_of_false ?_ fun h => hknown ⟨h.1, h.2.1⟩
      rintro ⟨-, -, -, hq⟩
      rw [Option.getD_none] at hq
      rcases hback.2.1 with h2 | h3
      · exact hdev.1 (hq.symm.trans h2)
      · exact hdev.2 (hq.symm.trans h3)
  · rw [removeVlanTag_other hframe hlen hbyte hown copy]
    refine iff_of_false ?_ fun h => hown h.2.2
    rintro ⟨hf, -⟩
    have htagged := vlanPutTag_length (virIfIdx cfg (ppeSetDstPort cfg net) skb.dev)
      (le_trans (by decide) hlen)
    rw [← hframe, hf] at htagged
    unfold VLAN_HLEN at htagged
    omega

/-- The two handlers leave a packet as it was exactly when it is none for the engine, or it
is from a registered interface that the build knows and comes back to the driver alone; and
the interfaces have ports of their own exactly without the two options together. -/
theorem pingPong_iff (cfg : ExtBuild) (net : Net) (skb r : SkBuff) (copy : Bool)
    (hat : skb.AtLayer3) (hdev : skb.dev ≠ .eth 2 ∧ skb.dev ≠ .eth 3)
    (hback : ComesBack cfg net skb r) :
    (PingPong cfg net skb r copy ↔
      ¬ (cfg.hwNatWifi ∨ cfg.hwNatPci) ∨ isPpeProtocol skb.protocol = false ∨
        net.registered (.eth 2) ∧ net.registered skb.dev ∧ cfg.Knows skb.dev ∧
          r.cloned = false ∧ r.shared = false) ∧
    (PortsDistinct cfg ↔ ¬ (cfg.mbss ∧ cfg.wds)) := by
  refine ⟨?_, portsDistinct_iff⟩
  by_cases hbuilt : cfg.hwNatWifi ∨ cfg.hwNatPci
  · by_cases hproto : isPpeProtocol skb.protocol = true
    · rw [pingPong_of_sent copy hat hdev hback hbuilt hproto, hproto]
      simp only [hbuilt, not_true_eq_false, Bool.true_eq_false, false_or]
    · have hpass : ppeExtIfRxHandler cfg (ppeSetDstPort cfg net) skb = .pass skb := by
        rw [ppeExtIfRxHandler, if_neg (not_not.mpr hbuilt), if_pos hproto]
      refine iff_of_true ?_ (.inr (.inl (by simpa using hproto)))
      unfold PingPong
      rw [hpass]
  · have hpass : ppeExtIfRxHandler cfg (ppeSetDstPort cfg net) skb = .pass skb := if_pos hbuilt
    refine iff_of_true ?_ (.inl hbuilt)
    unfold PingPong
    rw [hpass]

end Handlers
/-! A frame of 18 bytes, and the packet that a driver makes of one that it has received. -/

def ipFrame : List UInt8 :=
  [2, 0, 0, 0, 0, 1, 2, 0, 0, 0, 0, 2, 0x08, 0x00, 0x45, 0, 0, 18]

def received (dev : NetDev) (frame : List UInt8) : SkBuff where
  mem := writeBytes (fun _ => 0) 0 frame
  data := ETH_HLEN
  len := frame.length - ETH_HLEN
  mac := 0
  protocol := be16 (writeBytes (fun _ => 0) 0 frame) (2 * ETH_ALEN)
  dev := dev
  pktType := .host
  cloned := false
  shared := false

def allDevices : Net := ⟨fun _ => true, fun _ => [], fun _ => List.replicate 6 0xFF⟩

/-- With one of the two options, the eighth device has its packets back. -/
theorem pingPong_iff_ra7 :
    PingPong { mbss := true } allDevices (received (.ra 7) ipFrame)
      (received (.eth 2) (vlanPutTag ipFrame 18)) true := by
  refine (pingPong_iff { mbss := true } allDevices (received (.ra 7) ipFrame)
    (received (.eth 2) (vlanPutTag ipFrame 18)) true rfl (by decide)
    ⟨rfl, .inl rfl, fun dev frame h => ?_⟩).1.mpr
    (.inr (.inr ⟨rfl, rfl, ⟨⟨18, by decide, by decide⟩, by decide⟩, rfl, rfl⟩))
  obtain ⟨-, rfl⟩ := RxResult.xmit.inj h
  rfl

/-- With both, its frames go out without a tag of their own, and do not come back to it. -/
theorem pingPong_loses_ra7 :
    ComesBack { mbss := true, wds := true } allDevices (received (.ra 7) ipFrame)
      (received (.eth 2) (vlanPutTag ipFrame 0)) ∧
    ¬ PingPong { mbss := true, wds := true } allDevices (received (.ra 7) ipFrame)
      (received (.eth 2) (vlanPutTag ipFrame 0)) true ∧
    ¬ PortsDistinct { mbss := true, wds := true } := by
  have hback : ComesBack { mbss := true, wds := true } allDevices (received (.ra 7) ipFrame)
      (received (.eth 2) (vlanPutTag ipFrame 0)) := by
    refine ⟨rfl, .inl rfl, fun dev frame h => ?_⟩
    obtain ⟨-, rfl⟩ := RxResult.xmit.inj h
    rfl
  refine ⟨hback, fun h => ?_, fun h => portsDistinct_iff.mp h ⟨rfl, rfl⟩⟩
  have hat : (received (.ra 7) ipFrame).AtLayer3 := rfl
  have hknows := (pingPong_of_sent true hat (by decide) hback (.inl rfl) rfl).mp h
  exact hknows.2.2.1.2 ⟨rfl, rfl, rfl⟩

end Ralink.HwNat
