import Mathlib.Data.List.Infix
import DiskKeys.Proofs.Bytes.Script

/-! # Reading back a script of writes

    What a builder holds after some writes is their written forms one after
    the other (`map_toBytes_run`).  Nothing in these bytes says where a
    write ends: the reads bring the widths with them.  A read that matches
    the write whose bytes are in front yields what was written and comes to
    stand before the next one (`step_reading`), so the matching reads in a
    row go through a whole script and stop where it ends
    (`written_reads_back`). -/

namespace DiskKeys.Builder

/-! ## Writing -/

/-- The written form of a write. -/
def Step.toBytes : Step → Bytes
  | .u16 n => toLittleEndian 2 n.toNat
  | .u32 n => toLittleEndian 4 n.toNat
  | .bytes b => b

/-- How many bytes a write adds. -/
def Step.width : Step → Nat
  | .u16 _ => 2
  | .u32 _ => 4
  | .bytes b => b.length

theorem Step.length_toBytes (s : Step) : s.toBytes.length = s.width := by
  cases s with
  | u16 n => exact length_toLittleEndian 2 n.toNat
  | u32 n => exact length_toLittleEndian 4 n.toNat
  | bytes b => rfl

/-- The written form of writes in a row. -/
def written (steps : List Step) : Bytes :=
  steps.flatMap Step.toBytes

theorem written_cons (s : Step) (steps : List Step) :
    written (s :: steps) = s.toBytes ++ written steps := rfl

theorem length_written (steps : List Step) :
    (written steps).length = (steps.map Step.width).sum := by
  rw [written, List.length_flatMap, funext Step.length_toBytes]

theorem size_eq (b : Builder) : b.size = b.toBytes.length :=
  Array.length_toList.symm

theorem toBytes_step (b : Builder) (s : Step) : (b.step s).toBytes = b.toBytes ++ s.toBytes := by
  cases s with
  | u16 n => exact toBytes_putU16 b n
  | u32 n => exact toBytes_putU32 b n
  | bytes bytes => exact toBytes_putBytes b bytes

/-- Between its writes a builder holds what it held at first and the writes
    so far. -/
theorem map_toBytes_run (b : Builder) (steps : List Step) :
    (b.run steps).map toBytes = steps.inits.map fun before => b.toBytes ++ written before := by
  induction steps generalizing b with
  | nil => exact congrArg (· :: []) (List.append_nil b.toBytes).symm
  | cons s steps ih =>
      -- what the others find in the builder ends with the first write
      have hnext : ∀ before, b.toBytes ++ written (s :: before)
          = (b.step s).toBytes ++ written before := by
        intro before
        rw [toBytes_step, written_cons, List.append_assoc]
      rw [run, List.map_cons, ih, List.inits_cons, List.map_cons, List.map_map]
      simp only [Function.comp_def, hnext]
      exact congrArg (· :: _) (List.append_nil b.toBytes).symm

/-- After its writes it holds all of them. -/
theorem exists_getLast?_run (b : Builder) (steps : List Step) :
    ∃ last, (b.run steps).getLast? = some last ∧ last.toBytes = b.toBytes ++ written steps := by
  induction steps generalizing b with
  | nil => exact ⟨b, rfl, (List.append_nil b.toBytes).symm⟩
  | cons s steps ih =>
      obtain ⟨last, hlast, hbytes⟩ := ih (b.step s)
      refine ⟨last, ?_, ?_⟩
      · rw [run, List.getLast?_cons, hlast, Option.getD_some]
      · rw [hbytes, toBytes_step, written_cons, List.append_assoc]

/-- How much a new builder holds between its writes does not depend on the
    room that it started with. -/
theorem map_size_run (capacity : Nat) (steps : List Step) :
    ((withCapacity capacity).run steps).map size
      = steps.inits.map fun before => (before.map Step.width).sum := by
  have hsize : size = fun b => b.toBytes.length := funext size_eq
  calc ((withCapacity capacity).run steps).map size
      = (((withCapacity capacity).run steps).map toBytes).map List.length := by
        rw [hsize, List.map_map]
        rfl
    _ = (steps.inits.map written).map List.length := by
        simp only [map_toBytes_run, toBytes_withCapacity, List.nil_append]
    _ = steps.inits.map fun before => (before.map Step.width).sum := by
        rw [List.map_map]
        exact congrArg (steps.inits.map ·) (funext length_written)

/-! ## Reading -/

/-- The read that matches a write. -/
def Step.reading : Step → Cursor.Step
  | .u16 _ => .u16
  | .u32 _ => .u32
  | .bytes b => .take b.length

/-- What was written, as a read yields it. -/
def Step.piece : Step → Cursor.Piece
  | .u16 n => .number n.toNat
  | .u32 n => .number n.toNat
  | .bytes b => .bytes b

/-- The matching read yields the write in front and passes it. -/
theorem step_reading (position : Nat) (s : Step) (rest : Bytes) :
    (Cursor.ahead position (s.toBytes ++ rest)).step s.reading
      = (.ok s.piece, .ahead (position + s.width) rest) := by
  cases s with
  | u16 n =>
      rw [Step.reading, Cursor.step, Step.toBytes, Cursor.readU16_append]
      rfl
  | u32 n =>
      rw [Step.reading, Cursor.step, Step.toBytes, Cursor.readU32_append]
      rfl
  | bytes b =>
      rw [Step.reading, Cursor.step, Step.toBytes, Cursor.take_append position b rest rfl]
      rfl

/-- Matching reads in a row yield the writes in front, one after the
    other. -/
theorem run_reading (position : Nat) (steps : List Step) (tail : Bytes) :
    ((Cursor.ahead position (written steps ++ tail)).run (steps.map Step.reading)).map (·.1)
      = steps.map fun s => .ok s.piece := by
  induction steps generalizing position with
  | nil => rfl
  | cons s steps ih =>
      -- the others are part of what follows the first write
      rw [written_cons, List.append_assoc, List.map_cons, Cursor.run, step_reading, List.map_cons,
        ih]
      rfl

/-- They pass all of them and nothing else. -/
theorem goOn_reading (position : Nat) (steps : List Step) (tail : Bytes) :
    (Cursor.ahead position (written steps ++ tail)).goOn (steps.map Step.reading)
      = .ahead (position + (written steps).length) tail := by
  induction steps generalizing position with
  | nil => rfl
  | cons s steps ih =>
      rw [written_cons, List.append_assoc, List.map_cons, Cursor.goOn, List.foldl_cons,
        step_reading, List.length_append, Step.length_toBytes, ← Nat.add_assoc]
      exact ih (position + s.width)

/-! ## Scripts -/

/-- **Reading undoes writing.**  Before, between and after the writes of a
    script a new builder is as long as the writes so far are together,
    whatever room it started with.  When its last bytes are read with the
    matching reads, and whatever bytes follow them, every read succeeds, they
    yield what was written in the order of writing, and they stop at the
    builder's length with exactly the bytes ahead that followed. -/
theorem written_reads_back (capacity : Nat) (steps : List Step) (tail : Bytes) :
    let states := (withCapacity capacity).run steps
    states.map size = steps.inits.map (fun before => (before.map Step.width).sum) ∧
    ∃ last, states.getLast? = some last ∧
      let start := Cursor.ofBytes (last.toBytes ++ tail)
      let reads := steps.map Step.reading
      (start.run reads).map (·.1) = steps.map (fun s => .ok s.piece) ∧
      (start.goOn reads).position = last.size ∧ (start.goOn reads).rest = tail := by
  intro states
  obtain ⟨last, hlast, hbytes⟩ := exists_getLast?_run (withCapacity capacity) steps
  rw [toBytes_withCapacity, List.nil_append] at hbytes
  refine ⟨map_size_run capacity steps, last, hlast, ?_⟩
  simp only [size_eq, hbytes, Cursor.ofBytes_eq_ahead, goOn_reading]
  exact ⟨run_reading 0 steps tail, Nat.zero_add _, Cursor.rest_ahead _ tail⟩

/-- Bytes that could be a number, between two numbers. -/
example :
    ((Cursor.ofBytes (written [.u16 0xbeef, .bytes [7, 0], .u32 7] ++ [255])).run
      [.u16, .take 2, .u32]).map (·.1)
      = [.ok (.number 0xbeef), .ok (.bytes [7, 0]), .ok (.number 7)] := by
  decide

end DiskKeys.Builder
