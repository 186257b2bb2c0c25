import Succession.FileSystem.Standard
import Succession.Proofs.FileSystem.WriteRead
import Succession.RingLog

/-!
# The newest records stand in the log

The records of a log fall into laps: a record that would pass the limit begins the next one. The
file shows the laps as layers, the latest on top (`Shows`). Starting over changes no byte and begins
an empty layer (`Shows.wrap`), and writing lengthens the top layer (`Shows.append`). So after any
records the log shows their laps (`Shows.writeAll`), and the newest of them stand whole
(`newest_records_stand`).
-/

namespace Succession

/-! ## 1. Writing at a position -/

namespace FileCursor

/-- Where there is no gap, each byte is one of those written, or it is as it was. -/
theorem getElem?_overwrite {content bytes : Bytes} {position : Nat}
    (within : position ≤ content.length) (i : Nat) :
    (overwrite content position bytes)[i]? =
      if i < position then content[i]?
      else if i < position + bytes.length then bytes[i - position]?
      else content[i]? := by
  have front : (content.take position).length = position := List.length_take_of_le within
  rw [overwrite]
  split
  · next none =>
    rw [none, List.length_nil, Nat.add_zero]
    split <;> rfl
  · rw [Nat.sub_eq_zero_of_le within, List.replicate_zero, List.append_nil, List.append_assoc]
    split
    · next before => rw [List.getElem?_append_left (by omega), List.getElem?_take_of_lt before]
    · next behind =>
      rw [List.getElem?_append_right (by omega), front]
      split
      · next among => rw [List.getElem?_append_left (by omega)]
      · next beyond =>
        rw [List.getElem?_append_right (by omega), List.getElem?_drop]
        congr 1
        omega

theorem content_of_lookup {file : FileCursor} {fs : FileSystem} {bytes : Bytes}
    (stands : fs.lookup file.location = some (.file bytes)) : file.content fs = bytes := by
  rw [content, stands]

/-- Writing changes the file as far as the bytes reach. -/
theorem lookup_write {file : FileCursor} {fs : FileSystem} {old : Bytes}
    (stands : fs.lookup file.location = some (.file old)) (nonempty : file.location ≠ [])
    (bytes : Bytes) :
    (file.write fs bytes).2.lookup file.location =
      some (.file (overwrite old file.position bytes)) := by
  rw [write, stands]
  exact FileSystem.lookup_put_self fs _ nonempty

/-- A file that was opened for writing stands, and it is empty. -/
theorem create_eq_ok {fs made : FileSystem} {p : Path} {file : FileCursor}
    (created : create fs p = .ok (file, made)) :
    file.position = 0 ∧ file.location ≠ [] ∧ made.lookup file.location = some (.file []) := by
  obtain ⟨⟨location, made'⟩, opened, same⟩ := bind_eq_ok.mp created
  cases same
  obtain ⟨_, placed, opened⟩ := bind_eq_ok.mp opened
  cases (FileSystem.unlessRefused_eq_ok.mp opened).2
  have nonempty := (FileSystem.placeOfFile_free placed).1
  exact ⟨rfl, nonempty, FileSystem.lookup_put_self fs _ nonempty⟩

end FileCursor

namespace RingLog

/-! ## 2. Laps -/

/-- Records as a log holds them: one after another, each cut to the limit. -/
def inscription (limit : Nat) (records : List Bytes) : Bytes :=
  records.flatMap fun record => record.take limit

/-- Records by laps. -/
structure Laps where
  /-- The records since the log last started over. -/
  current : List Bytes := []
  /-- The records of the laps before, the latest lap first. -/
  earlier : List (List Bytes) := []

namespace Laps

/-- A new lap begins. -/
def wrap (laps : Laps) : Laps := ⟨[], laps.current :: laps.earlier⟩

/-- One more record in the current lap. -/
def append (laps : Laps) (record : Bytes) : Laps := { laps with current := laps.current ++ [record] }

/-- One more record: a new lap begins with it if it would pass the limit. -/
def add (limit : Nat) (laps : Laps) (record : Bytes) : Laps :=
  if limit < (inscription limit laps.current).length + record.length then laps.wrap.append record
  else laps.append record

/-- The laps that records make. -/
def ofRecords (limit : Nat) (records : List Bytes) : Laps := records.foldl (add limit) {}

/-- What laps have left at an offset: the byte of the latest one that came so far. -/
def leftAt (limit : Nat) (laps : List (List Bytes)) (i : Nat) : Option UInt8 :=
  laps.findSome? fun lap => (inscription limit lap)[i]?

end Laps

theorem inscription_concat (limit : Nat) (records : List Bytes) (record : Bytes) :
    inscription limit (records ++ [record]) = inscription limit records ++ record.take limit := by
  rw [inscription, List.flatMap_append, List.flatMap_singleton, inscription]

theorem Laps.leftAt_cons (limit : Nat) (lap : List Bytes) (laps : List (List Bytes)) (i : Nat) :
    leftAt limit (lap :: laps) i =
      if i < (inscription limit lap).length then (inscription limit lap)[i]?
      else leftAt limit laps i := by
  rw [leftAt, List.findSome?_cons]
  by_cases within : i < (inscription limit lap).length
  · rw [if_pos within, List.getElem?_eq_getElem within]
  · rw [if_neg within, List.getElem?_eq_none (Nat.not_lt.mp within), leftAt]

theorem Laps.ofRecords_concat (limit : Nat) (records : List Bytes) (record : Bytes) :
    ofRecords limit (records ++ [record]) = (ofRecords limit records).add limit record := by
  rw [ofRecords, List.foldl_append]
  rfl

/-- Every record is in one lap, and they are in order. -/
theorem Laps.flatten_foldl_add (limit : Nat) (records : List Bytes) (laps : Laps) :
    ((records.foldl (add limit) laps).current ::
        (records.foldl (add limit) laps).earlier).reverse.flatten =
      (laps.current :: laps.earlier).reverse.flatten ++ records := by
  induction records generalizing laps with
  | nil => exact (List.append_nil _).symm
  | cons record rest ih =>
    rw [List.foldl_cons, ih, List.append_cons]
    congr 1
    rw [add]
    split <;> simp [append, wrap]

theorem Laps.flatten_ofRecords (limit : Nat) (records : List Bytes) :
    ((ofRecords limit records).current ::
      (ofRecords limit records).earlier).reverse.flatten = records :=
  flatten_foldl_add limit records {}

theorem length_inscription_le (limit : Nat) (records : List Bytes) :
    (inscription limit records).length ≤ records.flatten.length := by
  induction records with
  | nil => exact Nat.le_refl 0
  | cons record rest ih =>
    rw [inscription, List.flatMap_cons, List.length_append, List.flatten_cons, List.length_append]
    exact Nat.add_le_add (List.length_take_le' _ _) ih

/-- A lap holds no more than was written in all. -/
theorem Laps.length_current_le (limit : Nat) (records : List Bytes) :
    (inscription limit (ofRecords limit records).current).length ≤ records.flatten.length := by
  have whole := flatten_ofRecords limit records
  rw [List.reverse_cons, List.flatten_append, List.flatten_singleton] at whole
  calc (inscription limit (ofRecords limit records).current).length
    _ ≤ (ofRecords limit records).current.flatten.length := length_inscription_le limit _
    _ ≤ ((ofRecords limit records).earlier.reverse.flatten ++
          (ofRecords limit records).current).flatten.length := by
      rw [List.flatten_append, List.length_append]
      exact Nat.le_add_left _ _
    _ = records.flatten.length := by rw [whole]

/-! ## 3. What the file shows -/

/-- The file of a log stands and shows laps: at each offset the byte that the latest of them left
there. The log is at the end of the current lap, and none is longer than the limit. -/
structure Shows (log : RingLog) (fs : FileSystem) (laps : Laps) : Prop where
  nonempty : log.file.location ≠ []
  stands : fs.lookup log.file.location = some (.file (log.content fs))
  position : log.file.position = log.written
  written : log.written = (inscription log.limit laps.current).length
  bounded : ∀ lap ∈ laps.current :: laps.earlier, (inscription log.limit lap).length ≤ log.limit
  bytes : ∀ i, (log.content fs)[i]? = Laps.leftAt log.limit (laps.current :: laps.earlier) i

namespace Shows

variable {log : RingLog} {fs : FileSystem} {laps : Laps}

theorem written_le (shown : Shows log fs laps) : log.written ≤ log.limit := by
  rw [shown.written]
  exact shown.bounded _ List.mem_cons_self

/-- The file ends where the longest lap ended. -/
theorem length_content_le (shown : Shows log fs laps) : (log.content fs).length ≤ log.limit := by
  have beyond : (log.content fs)[log.limit]? = none := by
    rw [shown.bytes, Laps.leftAt, List.findSome?_eq_none_iff]
    exact fun lap member => List.getElem?_eq_none (shown.bounded lap member)
  exact List.getElem?_eq_none_iff.mp beyond

theorem take_content (shown : Shows log fs laps) :
    (log.content fs).take log.written = inscription log.limit laps.current := by
  refine List.ext_getElem? fun i => ?_
  rw [List.getElem?_take, shown.bytes, Laps.leftAt_cons, ← shown.written]
  split
  · rfl
  · next beyond =>
    rw [List.getElem?_eq_none (Nat.le_of_not_lt (shown.written ▸ beyond))]

theorem getElem?_content (shown : Shows log fs laps) {i : Nat} (behind : log.written ≤ i) :
    (log.content fs)[i]? = Laps.leftAt log.limit laps.earlier i := by
  rw [shown.bytes, Laps.leftAt_cons, ← shown.written, if_neg (Nat.not_lt.mpr behind)]

theorem create {made : FileSystem} {p : Path} {limit : Nat}
    (created : create fs p limit = .ok (log, made)) : log.limit = limit ∧ Shows log made {} := by
  obtain ⟨⟨file, made'⟩, opened, same⟩ := bind_eq_ok.mp created
  cases same
  obtain ⟨start, nonempty, stands⟩ := FileCursor.create_eq_ok opened
  have empty : content ⟨file, limit, 0⟩ made = [] := FileCursor.content_of_lookup stands
  refine ⟨rfl, nonempty, ?_, start, rfl, ?_, fun i => ?_⟩
  · rw [empty]
    exact stands
  · exact List.forall_mem_singleton.mpr (Nat.zero_le limit)
  · rw [empty]
    rfl

/-- Starting over changes no byte of the file. -/
theorem wrap (shown : Shows log fs laps) : Shows log.wrap fs laps.wrap where
  nonempty := shown.nonempty
  stands := shown.stands
  position := rfl
  written := rfl
  bounded := List.forall_mem_cons.mpr ⟨Nat.zero_le _, shown.bounded⟩
  bytes := shown.bytes

/-- Writing what fits lengthens the current lap. -/
theorem append (shown : Shows log fs laps) {record : Bytes}
    (fits : log.written + (record.take log.limit).length ≤ log.limit) :
    Shows (log.append fs (record.take log.limit)).1 (log.append fs (record.take log.limit)).2
      (laps.append record) := by
  have within : log.written ≤ (log.content fs).length := by
    rw [shown.written, ← shown.take_content]
    exact List.length_take_le' _ _
  have longer := inscription_concat log.limit laps.current record
  have written := FileCursor.lookup_write shown.stands shown.nonempty (record.take log.limit)
  have content : RingLog.content (log.append fs (record.take log.limit)).1
      (log.append fs (record.take log.limit)).2 =
        FileCursor.overwrite (log.content fs) log.file.position (record.take log.limit) :=
    FileCursor.content_of_lookup written
  refine ⟨shown.nonempty, content ▸ written, ?_, ?_, ?_, fun i => ?_⟩
  · show log.file.position + _ = log.written + _
    rw [shown.position]
  · show log.written + _ = (inscription log.limit (laps.current ++ [record])).length
    rw [longer, List.length_append, shown.written]
  · obtain ⟨_, earlier⟩ := List.forall_mem_cons.mp shown.bounded
    refine List.forall_mem_cons.mpr ⟨?_, earlier⟩
    show (inscription log.limit (laps.current ++ [record])).length ≤ log.limit
    rw [longer, List.length_append, ← shown.written]
    exact fits
  · show _ = Laps.leftAt log.limit ((laps.current ++ [record]) :: laps.earlier) i
    rw [content, shown.position, FileCursor.getElem?_overwrite within, Laps.leftAt_cons, longer,
      List.length_append, ← shown.written]
    by_cases before : i < log.written
    · -- the lap was there already
      rw [if_pos before, if_pos (Nat.lt_add_right _ before), shown.bytes, Laps.leftAt_cons,
        ← shown.written, if_pos before, List.getElem?_append_left (shown.written ▸ before)]
    · rw [if_neg before]
      split
      · rw [List.getElem?_append_right (Nat.not_lt.mp (shown.written ▸ before)), ← shown.written]
      · exact shown.getElem?_content (Nat.not_lt.mp before)

/-- A record that is written joins the laps as `Laps.add` says. -/
theorem write (shown : Shows log fs laps) (record : Bytes) :
    (log.write fs record).2.1.limit = log.limit ∧
      Shows (log.write fs record).2.1 (log.write fs record).2.2 (laps.add log.limit record) := by
  rw [RingLog.write, makeRoom, Laps.add, ← shown.written]
  split
  · refine ⟨rfl, shown.wrap.append ?_⟩
    show 0 + (record.take log.limit).length ≤ log.limit
    rw [Nat.zero_add]
    exact List.length_take_le _ _
  · next fits =>
    refine ⟨rfl, shown.append ?_⟩
    exact Nat.le_trans (Nat.add_le_add_left (List.length_take_le' _ _) _) (Nat.not_lt.mp fits)

end Shows

/-! ## 4. Any number of records -/

/-- Writes records one after another; the result lists what was reported for each. -/
def writeAll (log : RingLog) (fs : FileSystem) : List Bytes → List Nat × RingLog × FileSystem
  | [] => ([], log, fs)
  | record :: rest =>
    let (report, log, fs) := log.write fs record
    let (reports, log, fs) := log.writeAll fs rest
    (report :: reports, log, fs)

theorem Shows.writeAll {log : RingLog} {fs : FileSystem} {laps : Laps} (shown : Shows log fs laps)
    (records : List Bytes) :
    (log.writeAll fs records).1 = records.map List.length ∧
      (log.writeAll fs records).2.1.limit = log.limit ∧
      Shows (log.writeAll fs records).2.1 (log.writeAll fs records).2.2
        (records.foldl (Laps.add log.limit) laps) := by
  induction records generalizing log fs laps with
  | nil => exact ⟨rfl, rfl, shown⟩
  | cons record rest ih =>
    obtain ⟨limit, shown'⟩ := shown.write record
    obtain ⟨reports, limit', final⟩ := ih shown'
    rw [limit] at limit' final
    exact ⟨congrArg (record.length :: ·) reports, limit', final⟩

/-- **The log keeps to its limit, and the newest records stand in it whole.** Take any limit, any
path at which a log can be started, whatever stood there, and any records. After they were written:

* each was reported with its full length;
* the counter is the position in the file, and neither it nor the file passes the limit;
* each record is in one lap, in order, and up to the counter the file holds the records of the
  current lap, each cut to the limit, one right behind the other, and so the newest one last;
* behind the counter each byte is what the latest of the earlier laps left there;
* the next record begins a new lap exactly if it would pass the limit;
* what is counted on the way is no more than what was written in all. -/
theorem newest_records_stand {fs made : FileSystem} {p : Path} {limit : Nat} {log : RingLog}
    (created : create fs p limit = .ok (log, made)) (records : List Bytes) :
    ∃ log' fs', log.writeAll made records = (records.map List.length, log', fs') ∧
      let laps := Laps.ofRecords limit records
      log'.file.position = log'.written ∧ log'.written ≤ limit ∧
      (log'.content fs').length ≤ limit ∧
      (laps.current :: laps.earlier).reverse.flatten = records ∧
      log'.written = (inscription limit laps.current).length ∧
      (log'.content fs').take log'.written = inscription limit laps.current ∧
      (∀ front newest, records = front ++ [newest] →
        newest.take limit <:+ (log'.content fs').take log'.written) ∧
      (∀ i, log'.written ≤ i → (log'.content fs')[i]? = Laps.leftAt limit laps.earlier i) ∧
      ∀ next, Laps.ofRecords limit (records ++ [next]) =
          (if limit < log'.written + next.length then ⟨[next], laps.current :: laps.earlier⟩
            else ⟨laps.current ++ [next], laps.earlier⟩) ∧
        log'.written + next.length ≤ (records ++ [next]).flatten.length := by
  obtain ⟨rfl, shown⟩ := Shows.create created
  obtain ⟨reports, same, shown⟩ := shown.writeAll records
  rcases all : log.writeAll made records with ⟨reports', log', fs'⟩
  rw [all] at reports same shown
  obtain rfl : reports' = records.map List.length := reports
  have same : log'.limit = log.limit := same
  have shown : Shows log' fs' (Laps.ofRecords log.limit records) := shown
  have counted := shown.written
  rw [same] at counted
  refine ⟨log', fs', rfl, shown.position, same ▸ shown.written_le, same ▸ shown.length_content_le,
    Laps.flatten_ofRecords log.limit records, counted, same ▸ shown.take_content, ?_,
    fun i behind => same ▸ shown.getElem?_content behind, fun next => ⟨?_, ?_⟩⟩
  · rintro front newest rfl
    rw [shown.take_content, same, Laps.ofRecords_concat, Laps.add]
    -- in either case the newest record is the last one of its lap
    split <;> exact (inscription_concat ..) ▸ List.suffix_append _ _
  · rw [counted, Laps.ofRecords_concat]
    rfl
  · rw [List.flatten_append, List.length_append, List.flatten_singleton, counted]
    exact Nat.add_le_add_right (Laps.length_current_le log.limit records) _

/-- A path at which there is an older and longer file. -/
def stale : FileSystem :=
  .ofLayouts [(Path.ofString "log", .file (Bytes.ofString "older and longer"))]

/-- Two records that do not fit behind each other, one that is empty, one that is longer than the
log, and one behind it. -/
def assorted : List Bytes := ["aaaaaa", "bbbb", "", "0123456789", "cc"].map Bytes.ofString

theorem newest_records_stand_of_assorted : ∃ log made log' fs',
    create stale (Path.ofString "log") 8 = .ok (log, made) ∧
      log.writeAll made assorted = ([6, 4, 0, 10, 2], log', fs') ∧ log'.written = 2 ∧
      (log'.content fs').take 2 = Bytes.ofString "cc" ∧
      (log'.content fs')[5]? = some 0x35 := by
  have started : (create stale (Path.ofString "log") 8).toOption.isSome = true := by decide +kernel
  obtain ⟨⟨log, made⟩, created⟩ := Option.isSome_iff_exists.mp started
  have created := toOption_eq_some.mp created
  obtain ⟨log', fs', all, _, _, _, _, counted, newest, _, older, _⟩ :=
    newest_records_stand created assorted
  have two : log'.written = 2 := counted.trans (by decide)
  rw [two] at newest older
  exact ⟨log, made, log', fs', created, all, two, newest.trans (by decide),
    (older 5 (by decide)).trans (by decide)⟩

end RingLog

end Succession
