import WixAuthoring.Proofs.JsonValues
import WixAuthoring.Proofs.Workshop

namespace WixAuthoring

/-!
# The record of the last build

A record that is kept can be read back as the value that was recorded, and a record that is refused
leaves the one before it as it was. Only what is sent to a device is lost without a word.
-/

namespace Utf8

/-- The text of a byte string that is well-formed throughout. -/
def decode? (bytes : List UInt8) : Option String := String.fromUTF8? bytes.toByteArray

theorem decode?_encode (s : String) : decode? (encode s) = some s := by
  have hbytes : (encode s).toByteArray = s.toByteArray := s.utf8Encode_toList
  rw [decode?, hbytes, String.fromUTF8?, dif_pos s.isValidUTF8]
  rfl

end Utf8

namespace Json

variable {n : Int} {v : Value}

/-- Holds of an integer and a value in which it stands, at any depth. -/
inductive Value.HasInteger (n : Int) : Value → Prop
  | self : HasInteger n (.integer n)
  | item {v : Value} {items : List Value} (hv : v ∈ items) (h : HasInteger n v) :
      HasInteger n (.list items)
  | field {f : String × Value} {fields : List (String × Value)} (hf : f ∈ fields)
      (h : HasInteger n f.2) : HasInteger n (.object fields)

/-- Holds of a value with an integer of more digits than are ever written. -/
def Value.HasLongInteger (v : Value) : Prop :=
  ∃ n, v.HasInteger n ∧ longestInteger < n.natAbs.repr.length

theorem areWritable_eq_true_iff {items : List Value} :
    areWritable items = true ↔ ∀ v ∈ items, v.isWritable = true := by
  induction items with
  | nil => simp [areWritable]
  | cons v items ih => rw [areWritable, Bool.and_eq_true, ih, List.forall_mem_cons]

theorem areWritableFields_eq_true_iff {fields : List (String × Value)} :
    areWritableFields fields = true ↔ ∀ f ∈ fields, f.2.isWritable = true := by
  induction fields with
  | nil => simp [areWritableFields]
  | cons f fields ih => rw [areWritableFields, Bool.and_eq_true, ih, List.forall_mem_cons]

theorem isWritable_iff_short : v.isWritable = true ↔
    ∀ n, v.HasInteger n → n.natAbs.repr.length ≤ longestInteger := by
  induction v using Value.induction with
  | null | boolean | text =>
      refine ⟨fun _ n hn ↦ ?_, fun _ ↦ rfl⟩
      cases hn
  | integer k =>
      have hshort : (Value.integer k).isWritable = true ↔
          k.natAbs.repr.length ≤ longestInteger := by
        change decide (k.natAbs < 10 ^ longestInteger) = true ↔ _
        rw [decide_eq_true_eq, Nat.length_repr_le_iff (by decide)]
      rw [hshort]
      constructor
      · rintro h n ⟨⟩
        exact h
      · exact fun h ↦ h k .self
  | list items ih =>
      change areWritable items = true ↔ _
      rw [areWritable_eq_true_iff]
      constructor
      · rintro h n (_ | ⟨hv, hn⟩)
        exact (ih _ hv).1 (h _ hv) n hn
      · exact fun h v hv ↦ (ih v hv).2 fun n hn ↦ h n (.item hv hn)
  | object fields ih =>
      change areWritableFields fields = true ↔ _
      rw [areWritableFields_eq_true_iff]
      constructor
      · rintro h n (_ | _ | ⟨hf, hn⟩)
        exact (ih _ hf).1 (h _ hf) n hn
      · exact fun h f hf ↦ (ih f hf).2 fun n hn ↦ h n (.field hf hn)

theorem isWritable_eq_false_iff : v.isWritable = false ↔ v.HasLongInteger := by
  rw [← Bool.not_eq_true, isWritable_iff_short, Value.HasLongInteger]
  push Not
  rfl

end Json

namespace Store

variable {s : Store} {here : Location} {path : String}

/-- Holds when the file at a path is well-formed text, and the text is that of a value and of nothing
else. -/
def Records (s : Store) (here : Location) (path : String) (value : Json.Value) : Prop :=
  ∃ content text, s.read here path = .ok content ∧ Utf8.decode? content = some text ∧
    Json.parse? text = some value

theorem records_toText {value : Json.Value}
    (h : s.read here path = .ok (Utf8.encode value.toText)) : s.Records here path value :=
  ⟨_, _, h, Utf8.decode?_encode _, Json.parse?_toText value⟩

end Store

namespace Journal

open Machine Store

variable {value : Json.Value} {m : Machine}

/-- Why a value is not recorded: it has too long an integer, or the store refuses to take its text. -/
inductive Obstacle (value : Json.Value) (m : Machine) : Failure → Prop
  | long (h : value.HasLongInteger) : Obstacle value m .integerTooLong
  | disk {e : StoreError} (hlong : ¬value.HasLongInteger)
      (h : (Disk.write m.here (recordPath m.environment) (Utf8.encode value.toText) m.store).1 =
        .error e) : Obstacle value m (writeFailure (recordPath m.environment) e)

/-- What recording a value comes to: the store in which it is kept, or what is told of a failure. -/
inductive Recording (value : Json.Value) (m : Machine) : Store → List String → Prop
  | kept {s : Store} (h : s.LeadsToDevice m.here (recordPath m.environment).text ∨
      s.Records m.here (recordPath m.environment).text value) : Recording value m s []
  | refused {s : Store} {e : Failure} (hcause : Obstacle value m e)
      (hmakes : MakesDirectories m.here (recordPath m.environment).parent m.store s)
      (hread : ∀ content, m.store.read m.here (recordPath m.environment).text = .ok content →
        s.read m.here (recordPath m.environment).text = .ok content) :
      Recording value m s ["Failed to log event: " ++ e.message]

theorem Recording.of_makes {s : Store} {e : Failure} (hcause : Obstacle value m e)
    (hmakes : MakesDirectories m.here (recordPath m.environment).parent m.store s) :
    Recording value m s ["Failed to log event: " ++ e.message] :=
  .refused hcause hmakes fun _ ↦ hmakes.read

theorem record_apply (value : Json.Value) (m : Machine) :
    record value m = ((), (writeRecord value m).2.toldAll
      (complaint "Failed to log event" (writeRecord value m).1)) :=
  attempt_apply ..

theorem record_of_long (hlong : value.HasLongInteger) (m : Machine) : record value m =
    ((), m.toldAll ["Failed to log event: " ++ Failure.integerTooLong.message]) := by
  have hwrite : writeRecord value m = (Except.error .integerTooLong, m) := by
    rw [writeRecord, Action.bind_of_ok (get_apply m), Json.isWritable_eq_false_iff.2 hlong]
    rfl
  rw [record_apply, hwrite]
  rfl

theorem record_of_short (hlong : ¬value.HasLongInteger) (m : Machine) : ∃ s lines,
    record value m = ((), (m.withStore s).toldAll lines) ∧ Recording value m s lines := by
  have hwritable : value.isWritable = true := by
    rwa [← Json.isWritable_eq_false_iff, Bool.not_eq_false] at hlong
  have hwrite := writeRecord_apply hwritable m
  rw [save_apply] at hwrite
  rcases hdisk : Disk.write m.here (recordPath m.environment) (Utf8.encode value.toText) m.store
    with ⟨e | ⟨⟩, s⟩
  · have hcause : Obstacle value m (writeFailure (recordPath m.environment) e) :=
      .disk hlong (by rw [hdisk])
    rw [hdisk] at hwrite
    refine ⟨s, _, ?_, .of_makes hcause (Disk.rewrite_eq_error hdisk)⟩
    rw [record_apply, hwrite]
    rfl
  · rw [hdisk] at hwrite
    refine ⟨s, [], ?_, .kept ((Disk.write_took hdisk).read.imp_right records_toText)⟩
    rw [record_apply, hwrite]
    rfl

/-- Whatever is recorded on whatever machine, either it can be read back and nothing is told, or one
failure is told and the record before it can still be read. Only what leads to a device may have been
lost. A value with an integer of too many digits is always refused. -/
theorem record_kept_or_refused (value : Json.Value) (m : Machine) : ∃ s lines,
    record value m = ((), (m.withStore s).toldAll lines) ∧ Recording value m s lines ∧
    (value.HasLongInteger →
      s = m.store ∧ lines = ["Failed to log event: " ++ Failure.integerTooLong.message]) := by
  by_cases hlong : value.HasLongInteger
  · exact ⟨m.store, _, record_of_long hlong m, .of_makes (.long hlong) (.refl _ _ _),
      fun _ ↦ ⟨rfl, rfl⟩⟩
  · obtain ⟨s, lines, hrecord, hcomes⟩ := record_of_short hlong m
    exact ⟨s, lines, hrecord, hcomes, (absurd · hlong)⟩

/-- One followed by as many zeros as there may be digits. -/
def longNumber : Json.Value := .list [.null, .integer (10 ^ Json.longestInteger : Nat)]

theorem hasLongInteger_longNumber : longNumber.HasLongInteger := by
  refine ⟨_, .item (List.mem_cons_of_mem _ List.mem_cons_self) .self, ?_⟩
  rw [Int.natAbs_natCast, ← Nat.not_le, Nat.length_repr_le_iff (by decide)]
  exact Nat.lt_irrefl _

theorem record_longNumber : record longNumber (Program.manifestOnly [] []) =
    ((), (Program.manifestOnly [] []).told
      ("Failed to log event: " ++ Failure.integerTooLong.message)) := by
  obtain ⟨s, lines, hrecord, -, hlong⟩ := record_kept_or_refused longNumber (Program.manifestOnly [] [])
  obtain ⟨rfl, rfl⟩ := hlong hasLongInteger_longNumber
  exact hrecord

/-- A machine on which the record of the last build is a link to a device that keeps nothing. -/
def muted : Machine := Program.manifestOnly []
  [(["dev"], .directory), (["dev", "null"], .device), (["Octobuild"], .directory),
    (["Octobuild", "logs"], .directory),
    (["Octobuild", "logs", "last_build.json"], .link "/dev/null")]

theorem muted_locate (purpose : Purpose) (hpurpose : purpose ≠ .name) :
    muted.store.locate [] purpose (recordPath {}).text = .ok (.object ["dev", "null"] .device) := by
  apply Store.locate_of_walk Program.spelling.record
  cases purpose with
  | name => exact absurd rfl hpurpose
  | look | write => rfl

/-- Nothing is told of a record that is lost in a device, and it cannot be read back. -/
theorem record_muted : record (.object []) muted = ((), muted) ∧
    ¬muted.store.Records muted.here (recordPath muted.environment).text (.object []) := by
  constructor
  · have hlogs : muted.store.isDirectory [] (recordPath {}).parent.text = .ok true :=
      Store.isDirectory_of_walk Program.spelling.logs rfl
    have hvalue : (Json.Value.object []).isWritable = true := rfl
    have hsave := save_of_write (m := muted) (Disk.write_of_device hlogs
      (muted_locate .write (by decide)) (Utf8.encode (Json.Value.object []).toText))
    have hwrite := (writeRecord_apply hvalue muted).trans hsave
    rw [record_apply, hwrite]
    rfl
  · rintro ⟨content, text, hread, htext, hvalue⟩
    change muted.store.read [] (recordPath {}).text = .ok content at hread
    rw [Store.read, muted_locate .look (by decide)] at hread
    obtain rfl := Except.ok.inj hread
    have hempty : Utf8.decode? [] = some "" := Utf8.decode?_encode ""
    rw [hempty] at htext
    obtain rfl := Option.some.inj htext
    cases hvalue

end Journal

end WixAuthoring
