import Ralink.Nand.Bounce

/-! A run of erasing, writing and reading, and beside it what each byte ought to be. -/
namespace Ralink.Nand
open ByteStore

/-- `retlen` is what the caller has in `*retlen`. -/
inductive Event where
  | erase (addr len : Nat)
  | write (to_ : Nat) (buf : List UInt8) (retlen : Nat)
  | read (from_ len retlen : Nat)

/-- The driver, the value each byte was given last, and whether that was since its block was
erased. -/
structure State where
  ra : ra_nand_chip
  value : Store
  written : Nat → Bool

/-- A byte that is not erased at the start counts as written. -/
def start (ra : ra_nand_chip) : State := ⟨ra, ra.data, fun a => ra.data a ≠ 0xFF⟩

variable (cfg : Config)

def step (s : State) : Event → State
  | .erase addr len =>
    let (_, stop, ra) := ramtd_nand_erase cfg s.ra addr len
    ⟨ra, fun a => if addr ≤ a ∧ a < stop then 0xFF else s.value a,
      fun a => if addr ≤ a ∧ a < stop then false else s.written a⟩
  | .write to_ buf retlen =>
    ⟨(ramtd_nand_write cfg s.ra to_ buf retlen).2, writeBytes s.value to_ buf,
      fun a => if to_ ≤ a ∧ a < to_ + buf.length then true else s.written a⟩
  | .read from_ len retlen => { s with ra := (ramtd_nand_read cfg s.ra from_ len retlen).2 }

/-- The range is inside the device, and no byte of it is written a second time. -/
def Allowed (s : State) : Event → Prop
  | .erase addr len => addr + len ≤ cfg.chipsize
  | .write to_ buf _ =>
    to_ + buf.length ≤ cfg.chipsize ∧ ∀ i < buf.length, s.written (to_ + i) = false
  | .read from_ len _ => from_ + len ≤ cfg.chipsize

/-- Every byte has the value it was given last. -/
def Faithful (s : State) : Prop := ∀ a, s.ra.data a = s.value a

/-- All bytes are written, and the bytes that are read are those that were written. -/
def Kept (s : State) : Event → Prop
  | .erase _ _ => True
  | .write to_ buf retlen => (ramtd_nand_write cfg s.ra to_ buf retlen).1 = ⟨0, buf.length, []⟩
  | .read from_ len retlen =>
    (ramtd_nand_read cfg s.ra from_ len retlen).1 = ⟨0, len, readBytes s.value from_ len⟩

/-- What lies in the buffer for a byte beside the range has a one for every one of that byte. A
call with nothing to do finds its count in `*retlen`. -/
def Harmless (s : State) : Event → Prop
  | .erase _ _ => True
  | .write to_ buf retlen =>
    (buf.length = 0 → retlen = 0) ∧
      ∀ a, Touched cfg to_ buf.length a → ¬ (to_ ≤ a ∧ a < to_ + buf.length) →
        s.ra.data a &&& leftover cfg s.ra.buffers to_ buf a = s.ra.data a
  | .read _ len retlen => len = 0 → retlen = 0

def Clean (s : State) : Prop := ∀ a, s.written a = false → s.value a = 0xFF

variable {cfg} {s : State} {to_ from_ len retlen addr : Nat} {buf : List UInt8}

variable (ra : ra_nand_chip)

theorem clean_start : Clean (start ra) := by
  intro a ha
  simpa [start] using ha

theorem Clean.step (h : Clean s) (e : Event) : Clean (Nand.step cfg s e) := by
  cases e with
  | erase addr len =>
    intro a ha
    show (if addr ≤ a ∧ a < (ramtd_nand_erase cfg s.ra addr len).2.1 then 0xFF
      else s.value a) = 0xFF
    by_cases hin : addr ≤ a ∧ a < (ramtd_nand_erase cfg s.ra addr len).2.1
    · exact if_pos hin
    · rw [if_neg hin]
      exact h a ((if_neg hin).symm.trans ha)
  | write to_ buf retlen =>
    intro a ha
    show writeBytes s.value to_ buf a = 0xFF
    by_cases hin : to_ ≤ a ∧ a < to_ + buf.length
    · exact (Bool.noConfusion ((if_pos hin).symm.trans ha))
    · rw [writeBytes_apply, if_neg hin]
      exact h a ((if_neg hin).symm.trans ha)
  | read from_ len retlen => exact h

theorem erase_faithful (h : Faithful s) (addr len : Nat) :
    Faithful (step cfg s (.erase addr len)) := by
  intro a
  show (ramtd_nand_erase cfg s.ra addr len).2.2.data a =
    if addr ≤ a ∧ a < (ramtd_nand_erase cfg s.ra addr len).2.1 then 0xFF else s.value a
  unfold ramtd_nand_erase
  by_cases halign : addr % cfg.blocksize ≠ 0 ∨ len % cfg.blocksize ≠ 0
  · rw [if_pos halign]
    show s.ra.data a = if addr ≤ a ∧ a < addr then 0xFF else s.value a
    rw [if_neg (by omega)]
    exact h a
  · rw [if_neg halign]
    have hdvd : cfg.blocksize ∣ addr := Nat.dvd_of_mod_eq_zero (not_not.mp (not_or.mp halign).1)
    obtain ⟨-, hbytes⟩ := erase_spec s.ra addr (len / cfg.blocksize) hdvd
    rw [← h a]
    rcases hloop : eraseLoop cfg s.ra addr (len / cfg.blocksize) with ⟨done, stop, ra⟩
    rw [hloop] at hbytes
    cases done <;> exact hbytes a

theorem readBytes_value (h : Faithful s) (o n : Nat) :
    readBytes s.ra.data o n = readBytes s.value o n := readBytes_congr fun i _ => h (o + i)

theorem ramtd_read_zero (retlen : Nat) (hin : from_ + 0 ≤ cfg.chipsize) :
    ramtd_nand_read cfg ra from_ 0 retlen = (⟨0, retlen, []⟩, ra) := by
  rw [ramtd_nand_read, if_neg (Nat.not_lt.mpr hin), if_pos rfl]

theorem ramtd_read_eq (retlen : Nat) (hin : from_ + len ≤ cfg.chipsize) (hlen : len ≠ 0) :
    (ramtd_nand_read cfg ra from_ len retlen).1 = ⟨0, len, readBytes ra.data from_ len⟩ ∧
      (ramtd_nand_read cfg ra from_ len retlen).2.data = ra.data := by
  obtain ⟨hbuf, hdata⟩ := read_spec ra from_ len [] hin
  rw [ramtd_nand_read, if_neg (Nat.not_lt.mpr hin), if_neg hlen]
  refine ⟨?_, hdata⟩
  show (⟨0, (nand_do_read_ops cfg ra from_ len []).1.length,
    (nand_do_read_ops cfg ra from_ len []).1⟩ : Result) = _
  rw [hbuf, List.nil_append, length_readBytes]

theorem read_iff (h : Faithful s) (hin : from_ + len ≤ cfg.chipsize) :
    Faithful (step cfg s (.read from_ len retlen)) ∧ Kept cfg s (.read from_ len retlen) ↔
      Harmless cfg s (.read from_ len retlen) := by
  by_cases hlen : len = 0
  · subst hlen
    have hread := ramtd_read_zero s.ra retlen hin
    have hfaithful : Faithful (step cfg s (.read from_ 0 retlen)) := by
      intro a
      show (ramtd_nand_read cfg s.ra from_ 0 retlen).2.data a = s.value a
      rw [hread]
      exact h a
    rw [and_iff_right hfaithful]
    show (ramtd_nand_read cfg s.ra from_ 0 retlen).1 = ⟨0, 0, []⟩ ↔ (0 = 0 → retlen = 0)
    rw [hread]
    exact ⟨fun heq _ => congrArg Result.retlen heq, fun heq => by rw [heq rfl]⟩
  · obtain ⟨hresult, hdata⟩ := ramtd_read_eq s.ra retlen hin hlen
    refine iff_of_true ⟨fun a => ?_, ?_⟩ fun h0 => (hlen h0).elim
    · show (ramtd_nand_read cfg s.ra from_ len retlen).2.data a = s.value a
      rw [hdata]
      exact h a
    · show (ramtd_nand_read cfg s.ra from_ len retlen).1 = _
      rw [hresult, readBytes_value h]

theorem ones_and (x : UInt8) : 0xFF &&& x = x := by
  show (-1 : UInt8) &&& x = x
  exact UInt8.neg_one_and

theorem write_faithful_iff (h : Faithful s) (hclean : Clean s)
    (hin : to_ + buf.length ≤ cfg.chipsize) (hlen : buf.length ≠ 0)
    (honce : ∀ i < buf.length, s.written (to_ + i) = false) :
    Faithful (step cfg s (.write to_ buf retlen)) ↔
      ∀ a, Touched cfg to_ buf.length a → ¬ (to_ ≤ a ∧ a < to_ + buf.length) →
        s.ra.data a &&& leftover cfg s.ra.buffers to_ buf a = s.ra.data a := by
  obtain ⟨-, hbytes⟩ := write_spec s.ra to_ buf 0 hin
  have hstep : (step cfg s (.write to_ buf retlen)).ra.data =
      (nand_do_write_ops cfg s.ra to_ buf 0).2.data := by
    show (ramtd_nand_write cfg s.ra to_ buf retlen).2.data = _
    rw [ramtd_nand_write, if_neg (Nat.not_lt.mpr hin), if_neg hlen]
  refine forall_congr' fun a => ?_
  show (step cfg s (.write to_ buf retlen)).ra.data a = writeBytes s.value to_ buf a ↔ _
  rw [hstep, hbytes a, writeBytes_apply, programmed, writeBytes_apply]
  by_cases hrange : to_ ≤ a ∧ a < to_ + buf.length
  · have htouched : Touched cfg to_ buf.length a :=
      ⟨a - to_, by omega, by rw [Nat.add_sub_cancel' hrange.1]⟩
    have hunwritten : s.written a = false := by
      have hi := honce (a - to_) (by omega)
      rwa [Nat.add_sub_cancel' hrange.1] at hi
    rw [if_pos htouched, if_pos hrange, if_pos hrange, h a, hclean a hunwritten, ones_and]
    exact iff_of_true rfl fun _ hout => (hout hrange).elim
  · rw [if_neg hrange, if_neg hrange, ← h a]
    by_cases htouched : Touched cfg to_ buf.length a
    · rw [if_pos htouched]
      exact ⟨fun heq _ _ => heq, fun hall => hall htouched hrange⟩
    · rw [if_neg htouched]
      exact iff_of_true rfl fun ht => (htouched ht).elim

theorem write_iff (h : Faithful s) (hclean : Clean s)
    (hallowed : Allowed cfg s (.write to_ buf retlen)) :
    Faithful (step cfg s (.write to_ buf retlen)) ∧ Kept cfg s (.write to_ buf retlen) ↔
      Harmless cfg s (.write to_ buf retlen) := by
  obtain ⟨hin, honce⟩ := hallowed
  by_cases hlen : buf.length = 0
  · obtain rfl := List.length_eq_zero_iff.mp hlen
    have hwrite : ramtd_nand_write cfg s.ra to_ [] retlen = (⟨0, retlen, []⟩, s.ra) := by
      rw [ramtd_nand_write, if_neg (Nat.not_lt.mpr hin), if_pos List.length_nil]
    have hfaithful : Faithful (step cfg s (.write to_ [] retlen)) := by
      intro a
      show (ramtd_nand_write cfg s.ra to_ [] retlen).2.data a = writeBytes s.value to_ [] a
      rw [hwrite, writeBytes_nil]
      exact h a
    have hnone : ∀ a, ¬ Touched cfg to_ 0 a := fun a ⟨i, hi, _⟩ => Nat.not_lt_zero i hi
    rw [and_iff_right hfaithful]
    show (ramtd_nand_write cfg s.ra to_ [] retlen).1 = ⟨0, 0, []⟩ ↔ (0 = 0 → retlen = 0) ∧ _
    rw [hwrite]
    constructor
    · exact fun heq => ⟨fun _ => congrArg Result.retlen heq, fun a ha => (hnone a ha).elim⟩
    · exact fun hr => by rw [hr.1 rfl]
  · have hkept : Kept cfg s (.write to_ buf retlen) := by
      obtain ⟨hcount, -⟩ := write_spec s.ra to_ buf 0 hin
      show (ramtd_nand_write cfg s.ra to_ buf retlen).1 = _
      rw [ramtd_nand_write, if_neg (Nat.not_lt.mpr hin), if_neg hlen]
      show (⟨0, (nand_do_write_ops cfg s.ra to_ buf 0).1, []⟩ : Result) = _
      rw [hcount, Nat.zero_add]
    rw [and_iff_left hkept, write_faithful_iff h hclean hin hlen honce]
    exact (and_iff_right fun h0 => (hlen h0).elim).symm

/-- In a run that writes no byte twice between two erasures, every byte always has the value it
was given last, and every reading returns it, exactly when all writes are harmless. -/
theorem run_readBack (cfg : Config) (ra : ra_nand_chip) (es : List Event)
    (hallowed : Run.AllSteps (step cfg) (Allowed cfg) (start ra) es) :
    ((∀ n, Faithful (Run.exec (step cfg) (start ra) (es.take n))) ∧
      Run.AllSteps (step cfg) (Kept cfg) (start ra) es) ↔
    Run.AllSteps (step cfg) (Harmless cfg) (start ra) es := by
  symm
  apply Run.allSteps_iff_kept (A := Clean) _ _ (clean_start ra) (fun _ => rfl) hallowed
  · exact fun s e hclean _ _ => hclean.step e
  · intro s e hclean h hq
    cases e with
    | erase addr len => exact iff_of_true ⟨erase_faithful h addr len, trivial⟩ trivial
    | write to_ buf retlen => exact write_iff h hclean hq
    | read from_ len retlen => exact read_iff h hq

/-- An erased chip, and the buffer as it is allocated. -/
def erasedChip : ra_nand_chip := ⟨fun _ => 0xFF, fun _ => 0xFF, fun _ => 0, fun _ => .UNKNOWN⟩

/-- The first page is written as a whole, its block is erased, and it is read. -/
def wholePage : List Event :=
  [.write 0 (List.replicate 512 7) 0, .read 5 3 0, .erase 0 16384]

theorem run_readBack_wholePage :
    Run.AllSteps (step smallPages) (Allowed smallPages) (start erasedChip) wholePage ∧
    (((∀ n, Faithful (Run.exec (step smallPages) (start erasedChip) (wholePage.take n))) ∧
      Run.AllSteps (step smallPages) (Kept smallPages) (start erasedChip) wholePage) ↔
    Run.AllSteps (step smallPages) (Harmless smallPages) (start erasedChip) wholePage) := by
  have hallowed : Run.AllSteps (step smallPages) (Allowed smallPages) (start erasedChip)
      wholePage := by
    have hwrite : 0 + (List.replicate 512 (7 : UInt8)).length ≤ smallPages.chipsize := by
      rw [List.length_replicate]
      decide
    refine ⟨⟨hwrite, fun i _ => rfl⟩, (by decide : 5 + 3 ≤ smallPages.chipsize),
      (by decide : 0 + 16384 ≤ smallPages.chipsize), trivial⟩
  exact ⟨hallowed, run_readBack smallPages erasedChip wholePage hallowed⟩

/-- The first write after the driver has started, of one byte. -/
def oneByte : List Event := [.write 0 [7] 0]

/-- The zeros of the buffer are programmed into the other bytes of the page. -/
theorem rest_of_page_lost :
    Run.AllSteps (step smallPages) (Allowed smallPages) (start erasedChip) oneByte ∧
    ¬ ((∀ n, Faithful (Run.exec (step smallPages) (start erasedChip) (oneByte.take n))) ∧
      Run.AllSteps (step smallPages) (Kept smallPages) (start erasedChip) oneByte) := by
  refine ⟨⟨⟨by decide, fun i _ => rfl⟩, trivial⟩, ?_⟩
  rintro ⟨hfaithful, -⟩
  exact absurd (hfaithful 1 1) (by decide +kernel)

end Ralink.Nand
