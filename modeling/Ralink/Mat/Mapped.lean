import Ralink.Mat.Tables

/-! The runs in which no update passes over an entry that it looks for. -/
namespace Ralink.Mat
open Function Links

/-- The tables after the events `es` from the state `m₀` on. -/
structure Mapped (HZ : BitVec 32) (m₀ : MatStruct) (es : List Event) (m : MatStruct) : Prop where
  linked : Linked m
  once : KeysOnce m
  /-- An update that ages entries out takes no other ones away and leaves them as they are. -/
  ageing : ∀ (e : Event) c now addr m' r, e.change HZ = some (c, now, addr) →
    tableUpdate m c now addr = some (m', r) →
    ∀ i, ∀ x ∈ m.entries i, Survives c now x (m'.entries i)
  /-- An IP address gives what the last update of it has stored. -/
  ipLast : ∀ past later mac ip now addr, es = past ++ .ipUpdate mac ip now addr :: later →
    IS_MULTICAST_IP ip = false →
    ∀ m₁ m₂, Run.tryExec (step HZ) m₀ past = some m₁ →
    IPMacTableUpdate m₁ HZ mac ip now addr = some (m₂, true) →
    Run.AllTries (step HZ) (fun m e => e.Young HZ (.ip ip) m ∧
      ∀ c now addr, e.change HZ = some (c, now, addr) → c.fresh.key ≠ .ip ip) m₂ later →
    ∀ t, ∃ m', lookUp m (.ip ip) t = some (m', some mac)
  /-- A PPPoE query gives the entry that was stored last among those that it matches. -/
  storedLast : ∀ past e later c now addr, es = past ++ e :: later →
    e.change HZ = some (c, now, addr) → c.slot.1 ≠ .ip →
    ∀ m₁ m₂ p, Run.tryExec (step HZ) m₀ past = some m₁ →
    (∀ x ∈ m₁.entries c.slot, c.same x.data = false) →
    tableUpdate m₁ c now addr = some (m₂, some p) →
    ∀ q : Query, q.finds c.fresh = true →
    Run.AllTries (step HZ) (fun m e => e.Young HZ c.fresh.key m ∧ e.NoOther HZ q m) m₂ later →
    ∀ t, ∃ m', lookUp m q t = some (m', some c.fresh.mac)
  /-- Nothing is found of what was never stored. -/
  never : ∀ q : Query, q.multicast = false →
    Run.AllTries (step HZ) (fun m e => ∀ c now addr m' r, e.change HZ = some (c, now, addr) →
      q.finds c.fresh = true → tableUpdate m c now addr = some (m', r) → r = none) m₀ es →
    ∀ t, ∃ m', lookUp m q t = some (m', q.miss)
  /-- A multicast address gives the address of its group. -/
  multicast : ∀ ip t, IS_MULTICAST_IP ip = true →
    ∃ m', lookUp m (.ip ip) t = some (m', some (ConvertMulticastIP2MAC ip))

section Age

theorem not_after {now last limit : BitVec 32} (h : now - last ≤ limit)
    (hlimit : limit.toNat < 2 ^ 31) : RTMP_TIME_AFTER now (last + limit) = false := by
  have hsub : last + limit - now = limit - (now - last) := by bv_omega
  have hle : (now - last).toNat ≤ limit.toNat := h
  rw [RTMP_TIME_AFTER, hsub, BitVec.msb_eq_false_iff_two_mul_lt, BitVec.toNat_sub_of_le h]
  omega

theorem Event.ageout_lt {HZ : BitVec 32} (hHZ : (MAT_TB_ENTRY_AGEOUT_TIME HZ).toNat < 2 ^ 31)
    {e : Event} {c : Change} {now : Nat → BitVec 32} {addr : Ptr}
    (h : e.change HZ = some (c, now, addr)) : c.ageout.toNat < 2 ^ 31 := by
  cases e with
  | ipUpdate | uidUpdate =>
    obtain ⟨rfl, -⟩ := Prod.mk.inj (Option.some.inj h)
    exact hHZ
  | sesUpdate inMac sesID outMac now addr =>
    obtain ⟨rfl, -⟩ := Prod.mk.inj (Option.some.inj h)
    exact of_decide_eq_true rfl
  | lookUp q now => cases h

end Age

section Runs

variable {HZ : BitVec 32} {m m₀ : MatStruct} {lists : Lists} {es : List Event} {q : Query}
  {k : Key} {mac : Mac}

def Event.Quiet (HZ : BitVec 32) (q : Query) (k : Key) (m : MatStruct) (e : Event) : Prop :=
  e.Young HZ k m ∧ ∀ c now addr, e.change HZ = some (c, now, addr) →
    (∀ d, d.key = k → c.same d = true → (c.touch d).mac = d.mac) ∧
    ((c.walk now (m.entries c.slot)).2.1 = none → q.finds c.fresh = false)

theorem run_front (hHZ : (MAT_TB_ENTRY_AGEOUT_TIME HZ).toNat < 2 ^ 31) (h : Holds m lists)
    (hf : Front q k mac lists) (hquiet : Run.AllTries (step HZ) (Event.Quiet HZ q k) m es) :
    ∃ m', Run.tryExec (step HZ) m es = some m' ∧ ∃ lists', Holds m' lists' ∧
      Front q k mac lists' := by
  refine Run.tryExec_inv (I := fun m => ∃ lists, Holds m lists ∧ Front q k mac lists)
    (fun m e hI hq => ?_) ⟨lists, h, hf⟩ hquiet
  obtain ⟨lists, h, hf⟩ := hI
  obtain ⟨m', lists', hstep, h', hcases⟩ := step_cases HZ h e
  refine ⟨m', hstep, lists', h', ?_⟩
  rcases hcases with ⟨c, now, addr, r, hchange, -, hupdated⟩ | ⟨-, q', t, rfl | rfl⟩
  · obtain ⟨hyoung, hrest⟩ := hq
    obtain ⟨hmac, hnew⟩ := hrest c now addr hchange
    rw [h.entries_eq] at hnew
    refine hupdated.front (Event.change_keyed hchange) hf (fun x hx hkey n => ?_) hmac
      fun hn _ => hnew hn
    have hold := not_after (hyoung c now addr hchange x (by rwa [h.entries_eq]) hkey n)
      (Event.ageout_lt hHZ hchange)
    rw [Change.old, hold]
    exact Bool.false_ne_true
  · exact hf
  · exact front_refresh hf _ _ _

theorem run_holds (HZ : BitVec 32) (h : Holds m lists) (es : List Event) :
    ∃ m', Run.tryExec (step HZ) m es = some m' ∧ ∃ lists', Holds m' lists' := by
  refine Run.tryExec_inv (P := fun _ _ => True) (I := fun m => ∃ lists, Holds m lists)
    (fun m e hI _ => ?_) ⟨lists, h⟩ (Run.AllTries.of_forall fun _ _ => trivial)
  obtain ⟨lists, h⟩ := hI
  obtain ⟨m', lists', hstep, h', -⟩ := step_cases HZ h e
  exact ⟨m', hstep, lists', h'⟩

section

variable (h : Holds m lists)
include h

theorem run_unique (hu : Unique lists)
    (hskip : Run.AllTries (step HZ) (fun m e => e.skips HZ m = false) m es) :
    ∃ m', Run.tryExec (step HZ) m es = some m' ∧ ∃ lists', Holds m' lists' ∧ Unique lists' := by
  refine Run.tryExec_inv (I := fun m => ∃ lists, Holds m lists ∧ Unique lists)
    (fun m e hI hs => ?_) ⟨lists, h, hu⟩ hskip
  obtain ⟨lists, h, hu⟩ := hI
  obtain ⟨m', lists', hstep, h', hcases⟩ := step_cases HZ h e
  refine ⟨m', hstep, lists', h', ?_⟩
  rcases hcases with ⟨c, now, addr, r, hchange, -, hupdated⟩ | ⟨-, q', t, rfl | rfl⟩
  · refine hupdated.unique (Event.change_keyed hchange) hu ?_
    rwa [Event.skips, hchange, h.entries_eq] at hs
  · exact hu
  · exact unique_refresh hu _ _ _

theorem run_missing (hm : Missing q lists)
    (hnever : Run.AllTries (step HZ) (fun m e => ∀ c now addr m' r,
      e.change HZ = some (c, now, addr) → q.finds c.fresh = true →
      tableUpdate m c now addr = some (m', r) → r = none) m es) :
    ∃ m', Run.tryExec (step HZ) m es = some m' ∧ ∃ lists', Holds m' lists' ∧
      Missing q lists' := by
  refine Run.tryExec_inv (I := fun m => ∃ lists, Holds m lists ∧ Missing q lists)
    (fun m e hI hn => ?_) ⟨lists, h, hm⟩ hnever
  obtain ⟨lists, h, hm⟩ := hI
  obtain ⟨m', lists', hstep, h', hcases⟩ := step_cases HZ h e
  refine ⟨m', hstep, lists', h', ?_⟩
  rcases hcases with ⟨c, now, addr, r, hchange, hrun, hupdated⟩ | ⟨-, q', t, rfl | rfl⟩
  · refine hupdated.missing (Event.change_keyed hchange) hm fun hr => ?_
    by_contra hhit
    rw [Bool.not_eq_false] at hhit
    have hnone := hn c now addr m' r hchange hhit hrun
    rw [hr] at hnone
    exact absurd hnone (Option.some_ne_none _)
  · exact hm
  · exact missing_refresh hm _ _ _

theorem lookUp_front (hf : Front q k mac lists) (hq : q.multicast = false) (t : BitVec 32) :
    ∃ m', lookUp m q t = some (m', some mac) := by
  obtain ⟨e, hfind, -, hmac⟩ := hf
  obtain ⟨m', ans, lists', hrun, -, -, hans⟩ := lookUp_spec h q t
  rw [hfind, Option.map_some, Option.getD_some, hmac] at hans
  exact ⟨m', by rw [hrun, hans hq]⟩

theorem lookUp_missing (hm : Missing q lists) (hq : q.multicast = false) (t : BitVec 32) :
    ∃ m', lookUp m q t = some (m', q.miss) := by
  obtain ⟨m', ans, lists', hrun, -, -, hans⟩ := lookUp_spec h q t
  have hnone : (lists q.slot).find? (q.hit ∘ Entry.data) = none := by
    refine List.find?_eq_none.mpr fun x hx => ?_
    rw [comp_apply, hm x hx]
    exact Bool.false_ne_true
  rw [hnone, Option.map_none, Option.getD_none] at hans
  exact ⟨m', by rw [hrun, hans hq]⟩

theorem unique_once (hu : Unique lists) : KeysOnce m := by
  intro i j e he e' he' hkey
  rw [h.entries_eq] at he he'
  obtain rfl : i = j := by
    rw [← h.home i e he, ← h.home j e' he', ← Data.home_key, ← Data.home_key, hkey]
  exact List.inj_on_of_nodup_map (hu i) he he' hkey

end

variable {c : Change} {now : Nat → BitVec 32} {addr : Ptr} {r : Option Ptr} {lists' : Lists}
  {l : List Entry} {ip : Ip} {e : Event} {d : Data}

theorem skips_of_misses (hno : ∀ x ∈ l, c.same x.data = false) : c.skips now l = false := by
  match l with
  | [] => rfl
  | [_] => rfl
  | h :: x :: l => rw [Change.skips, hno x (by simp), Bool.and_false]

theorem walk_of_misses (hc : c.Keyed) (hno : ∀ x ∈ l, c.same x.data = false) :
    (c.walk now l).2.1 = none := by
  cases hfound : (c.walk now l).2.1 with
  | none => rfl
  | some p =>
    obtain ⟨e, he, -, hsame, -⟩ := walk_found hc.same_touch (skips_of_misses hno) hfound
    rw [hno e he] at hsame
    cases hsame

theorem Updated.front_stored (hc : c.Keyed) (h : Updated c now addr lists r lists')
    (hnone : (c.walk now (lists c.slot)).2.1 = none) (hr : r.isSome = true)
    (hq : q.finds c.fresh = true) : Front q c.fresh.key c.fresh.mac lists' := by
  have hslot : q.slot = c.slot := by
    rw [← hc.home]
    exact (of_decide_eq_true ((Bool.and_eq_true _ _).mp hq).1).symm
  rw [Query.finds_eq (hc.home.trans hslot.symm)] at hq
  cases h with
  | found hp => exact absurd (hp.symm.trans hnone) (Option.some_ne_none _)
  | noMemory _ => cases hr
  | stored t _ =>
    refine ⟨⟨addr, c.fresh, t⟩, ?_, rfl, rfl⟩
    rw [hslot, update_self]
    exact List.find?_cons_of_pos hq

theorem Updated.front_ip (h : Updated (ipChange HZ mac ip) now addr lists r lists')
    (hskip : (ipChange HZ mac ip).skips now (lists (ipChange HZ mac ip).slot) = false)
    (hr : r.isSome = true) : Front (.ip ip) (.ip ip) mac lists' := by
  have hc := ipChange_keyed HZ mac ip
  cases hwalk : ((ipChange HZ mac ip).walk now (lists (ipChange HZ mac ip).slot)).2.1 with
  | none =>
    refine h.front_stored hc hwalk hr ?_
    rw [Query.finds_eq (show (ipChange HZ mac ip).fresh.home = (Query.ip ip).slot from rfl)]
    exact decide_eq_true rfl
  | some p =>
    obtain ⟨e, -, n, hsame, -, hfind⟩ := walk_found hc.same_touch hskip hwalk
    have hself : lists' (Query.ip ip).slot = _ :=
      h.self.resolve_right fun hn => absurd (hwalk.symm.trans hn.1) (Option.some_ne_none _)
    refine ⟨(ipChange HZ mac ip).hit now n e, ?_, ?_, ?_⟩
    · rw [hself]
      refine Eq.trans (congrArg (fun f => List.find? f _) ?_) hfind
      funext x
      obtain ⟨p, d, t⟩ := x
      cases d <;> rfl
    · obtain ⟨p, d, t⟩ := e
      cases d with
      | ip e => exact congrArg Key.ip (of_decide_eq_true hsame)
      | uid e => cases hsame
      | ses e => cases hsame
    · obtain ⟨p, d, t⟩ := e
      cases d with
      | ip e => rfl
      | uid e => cases hsame
      | ses e => cases hsame

theorem Event.same_ip (hchange : e.change HZ = some (c, now, addr)) (hd : d.key = .ip ip)
    (hsame : c.same d = true) : c.fresh.key = .ip ip := by
  obtain ⟨x, rfl, rfl⟩ : ∃ x : IPMacMappingEntry, d = .ip x ∧ x.ipAddr = ip := by
    cases d with
    | ip x => exact ⟨x, rfl, Key.ip.inj hd⟩
    | uid x => cases hd
    | ses x => cases hd
  cases e with
  | ipUpdate mac ip' now addr =>
    obtain ⟨rfl, -⟩ := Prod.mk.inj (Option.some.inj hchange)
    exact congrArg Key.ip (of_decide_eq_true hsame).symm
  | uidUpdate | sesUpdate =>
    obtain ⟨rfl, -⟩ := Prod.mk.inj (Option.some.inj hchange)
    cases hsame
  | lookUp q t => cases hchange

theorem Event.touch_mac (hchange : e.change HZ = some (c, now, addr)) (hd : ∀ ip, d.key ≠ .ip ip) :
    (c.touch d).mac = d.mac := by
  cases e with
  | ipUpdate mac ip' now addr =>
    obtain ⟨rfl, -⟩ := Prod.mk.inj (Option.some.inj hchange)
    cases d with
    | ip x => exact absurd rfl (hd x.ipAddr)
    | uid x => rfl
    | ses x => rfl
  | uidUpdate inMac outMac tag isServer now addr =>
    obtain ⟨rfl, -⟩ := Prod.mk.inj (Option.some.inj hchange)
    cases d <;> rfl
  | sesUpdate inMac sesID outMac now addr =>
    obtain ⟨rfl, -⟩ := Prod.mk.inj (Option.some.inj hchange)
    rfl
  | lookUp q t => cases hchange

theorem quiet_ip (hy : e.Young HZ (.ip ip) m)
    (hno : ∀ c now addr, e.change HZ = some (c, now, addr) → c.fresh.key ≠ .ip ip) :
    e.Quiet HZ (.ip ip) (.ip ip) m := by
  refine ⟨hy, fun c now addr hchange => ⟨fun d hd hsame => ?_, fun _ => ?_⟩⟩
  · exact absurd (Event.same_ip hchange hd hsame) (hno c now addr hchange)
  · have hother := hno c now addr hchange
    have hhit : (Query.ip ip).hit c.fresh = false := by
      generalize c.fresh = d at hother
      cases d with
      | ip x => exact decide_eq_false fun heq => hother (congrArg Key.ip heq)
      | uid x => rfl
      | ses x => rfl
    rw [Query.finds, hhit, Bool.and_false]

theorem quiet_other (hk : ∀ ip, k ≠ .ip ip) (hskip : e.skips HZ m = false) (hy : e.Young HZ k m)
    (hno : e.NoOther HZ q m) : e.Quiet HZ q k m := by
  refine ⟨hy, fun c now addr hchange => ⟨fun d hd _ => ?_, fun hnone => ?_⟩⟩
  · exact Event.touch_mac hchange (hd ▸ hk)
  · by_contra hfinds
    rw [Bool.not_eq_false] at hfinds
    obtain ⟨x, hx, hsame⟩ := hno c now addr hchange hfinds
    rw [Event.skips, hchange] at hskip
    rcases walk_fate c now hx with hin | ⟨-, hfound, -⟩ | ⟨hn, -⟩
    · exact walk_none hskip hnone hin hsame
    · exact absurd (hfound.symm.trans hnone) (Option.some_ne_none _)
    · exact hn hsame

theorem key_ne_ip (h : d.home.1 ≠ .ip) (ip : Ip) : d.key ≠ .ip ip := by
  intro hkey
  rw [← Data.home_key, hkey] at h
  exact h rfl

theorem multicast_of_finds (hq : q.finds d = true) (h : d.home.1 ≠ .ip) : q.multicast = false := by
  have hslot := of_decide_eq_true ((Bool.and_eq_true _ _).mp hq).1
  cases q with
  | ip ipAddr => exact absurd (congrArg Prod.fst hslot) h
  | uid tag => rfl
  | ses outMac sesID => rfl

/-- The tables are maps whose entries age, in every run in which no update passes over an
entry that it looks for. -/
theorem run_mapped (hHZ : (MAT_TB_ENTRY_AGEOUT_TIME HZ).toNat < 2 ^ 31) {b : Ptr}
    (hinit : MATEngineInit b = some m₀) (es : List Event)
    (hskip : Run.AllTries (step HZ) (fun m e => e.skips HZ m = false) m₀ es) :
    ∃ m, Run.tryExec (step HZ) m₀ es = some m ∧ Mapped HZ m₀ es m := by
  have h₀ := holds_init hinit
  obtain ⟨m, hrun, lists, h, hu⟩ := run_unique h₀ unique_nil hskip
  refine ⟨m, hrun, h.linked, unique_once h hu, ?_, ?_, ?_, ?_, ?_⟩
  · intro e c now addr m' r hchange hup i x hx
    have hc := Event.change_keyed hchange
    obtain ⟨m'', r', lists', hup', h', hupdated⟩ := tableUpdate_spec hc.homed h now addr
    obtain ⟨rfl, rfl⟩ := Prod.mk.inj (Option.some.inj (hup.symm.trans hup'))
    rw [h.entries_eq] at hx
    rw [h'.entries_eq]
    exact hupdated.survives hc hx
  · rintro past later mac ip now addr rfl hmc m₁ m₂ hpast hup hlater t
    obtain ⟨m₁', hpast', lists₁, h₁⟩ := run_holds HZ h₀ past
    obtain rfl := Option.some.inj (hpast.symm.trans hpast')
    obtain ⟨m₂', r, lists₂, hup', h₂, hupdated⟩ :=
      tableUpdate_spec (ipChange_keyed HZ mac ip).homed h₁ now addr
    rw [IPMacTableUpdate, hup'] at hup
    obtain ⟨rfl, hr⟩ := Prod.mk.inj (Option.some.inj hup)
    have hs : (ipChange HZ mac ip).skips now (m₁.entries (ipChange HZ mac ip).slot) = false :=
      (hskip.of_append hpast).1
    rw [h₁.entries_eq] at hs
    obtain ⟨m', hrun', lists', h', hf⟩ := run_front hHZ h₂ (hupdated.front_ip hs hr)
      (hlater.imp fun m e he => quiet_ip he.1 he.2)
    rw [Run.tryExec_append, hpast, Option.bind_some, Run.tryExec_cons, step, IPMacTableUpdate,
      hup', Option.map_some, Option.map_some, Option.bind_some, hrun'] at hrun
    obtain rfl := Option.some.inj hrun
    exact lookUp_front h' hf hmc t
  · rintro past e later c now addr rfl hchange hnotip m₁ m₂ p hpast hmiss hup q hq hlater t
    have hc := Event.change_keyed hchange
    obtain ⟨m₁', hpast', lists₁, h₁⟩ := run_holds HZ h₀ past
    obtain rfl := Option.some.inj (hpast.symm.trans hpast')
    obtain ⟨m₂', r, lists₂, hup', h₂, hupdated⟩ :=
      tableUpdate_spec hc.homed h₁ now addr
    obtain ⟨rfl, hr⟩ := Prod.mk.inj (Option.some.inj (hup.symm.trans hup'))
    rw [h₁.entries_eq] at hmiss
    have hf := hupdated.front_stored hc (walk_of_misses hc hmiss) (hr ▸ rfl) hq
    have hstep : step HZ m₁ e = some m₂ := by
      rw [Event.step_change hchange, hup]
      rfl
    have hs := (hskip.of_append hpast).2 m₂ hstep
    have hip : c.fresh.home.1 ≠ .ip := hc.home ▸ hnotip
    obtain ⟨m', hrun', lists', h', hf'⟩ := run_front hHZ h₂ hf
      ((hs.and hlater).imp fun m e he => quiet_other (key_ne_ip hip) he.1 he.2.1 he.2.2)
    rw [Run.tryExec_append, hpast, Option.bind_some, Run.tryExec_cons, hstep, Option.bind_some,
      hrun'] at hrun
    obtain rfl := Option.some.inj hrun
    exact lookUp_front h' hf' (multicast_of_finds hq hip) t
  · intro q hq hnever t
    obtain ⟨m', hrun', lists', h', hm⟩ := run_missing h₀ (fun _ hx => absurd hx List.not_mem_nil)
      hnever
    obtain rfl := Option.some.inj (hrun.symm.trans hrun')
    exact lookUp_missing h' hm hq t
  · intro ip t hmc
    refine ⟨{ m with curMcastAddr := ConvertMulticastIP2MAC ip }, ?_⟩
    simp only [lookUp, IPMacTableLookUp, h.valid, hmc, if_true]

end Runs

/-- Three addresses in one chain, beside a PPPoE host. The last update passes the newest of them,
takes out the one in the middle and finds the oldest one, which a lookup has kept young. -/
def ageingRun : List Event :=
  [.ipUpdate (.replicate 6 2) #v[10, 0, 0, 1] (fun _ => 5) 2,
    .ipUpdate (.replicate 6 4) #v[10, 0, 1, 0] (fun _ => 6) 3,
    .uidUpdate (.replicate 6 2) (.replicate 6 6) (some [7, 7]) false (fun _ => 6) 4,
    .ipUpdate (.replicate 6 8) #v[10, 1, 0, 0] (fun _ => 60000) 5,
    .lookUp (.ip #v[10, 0, 0, 1]) 60001,
    .ipUpdate (.replicate 6 10) #v[10, 0, 0, 1] (fun _ => 76000) 6]

theorem run_mapped_ageing : ∃ m₀, MATEngineInit 1 = some m₀ ∧
    ∃ m, Run.tryExec (step 250) m₀ ageingRun = some m ∧ Mapped 250 m₀ ageingRun m :=
  ⟨_, rfl, run_mapped (b := 1) (by decide) rfl _ (by decide +kernel)⟩

/-- The MAC address that a lookup gives after a run from the start. -/
def answerAfter (HZ : BitVec 32) (es : List Event) (q : Query) : Option (Option Mac) := do
  let m ← Run.tryExec (step HZ) (← MATEngineInit 1) es
  (lookUp m q 9).map Prod.snd

example : answerAfter 250 ageingRun (.ip #v[10, 0, 1, 0]) = some (some BROADCAST_ADDR) ∧
    answerAfter 250 ageingRun (.ip #v[10, 0, 0, 1]) = some (some (.replicate 6 10)) := by
  decide +kernel

/-- Not what the last update has stored: for a multicast address, and when the tag of a host
is that of another one which came after it. -/
theorem answer_not_last :
    answerAfter 250 [.ipUpdate (.replicate 6 2) #v[224, 0, 0, 1] (fun _ => 5) 2]
        (.ip #v[224, 0, 0, 1]) ≠ some (some (.replicate 6 2)) ∧
      answerAfter 250
        [.uidUpdate (.replicate 6 2) (.replicate 6 6) (some [7, 7]) false (fun _ => 5) 2,
          .uidUpdate (.replicate 6 4) (.replicate 6 6) (some [7, 7]) false (fun _ => 6) 3,
          .uidUpdate (.replicate 6 2) (.replicate 6 6) (some [7, 7]) false (fun _ => 7) 4]
        (.uid (.ofTag [7, 7])) ≠ some (some (.replicate 6 2)) := by
  decide +kernel

end Ralink.Mat
