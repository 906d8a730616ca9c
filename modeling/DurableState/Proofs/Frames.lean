import DurableState.Proofs.Descent
import DurableState.Proofs.Room
import DurableState.Proofs.StateFile
import DurableState.Proofs.Writes

/-!
# DurableState.Proofs.Frames — which bytes are a state file

The frame around a content leaves no choice: bytes are taken for a state file with some content if
and only if they are what a writer puts around that content (`contentOf_eq_ok_iff`). So damage that
is confined to the frame, and any change of length, is always found (`Damaged.ne_enclose`), whatever
the checksum is worth as a hash.

Reading never leaves the bytes and never overflows: with every slice and every calculation checked
it goes the same way (`contentOf?_eq`).
-/

namespace DurableState

namespace Frame

/-! ## Numbers in bytes -/

/-- Bytes denote no number that does not fit them. -/
theorem ofLittleEndian_lt (bytes : List UInt8) : ofLittleEndian bytes < 256 ^ bytes.length := by
  induction bytes with
  | nil => decide
  | cons b rest ih =>
    have hb : b.toNat < 256 := b.toNat_lt
    rw [ofLittleEndian, List.length_cons, Nat.pow_succ]
    omega

/-- Bytes are those of the number that they denote. -/
theorem littleEndian_ofLittleEndian (bytes : List UInt8) :
    littleEndian bytes.length (ofLittleEndian bytes) = bytes := by
  induction bytes with
  | nil => rfl
  | cons b rest ih =>
    have hb : b.toNat < 256 := b.toNat_lt
    have hlow : (b.toNat + 256 * ofLittleEndian rest) % 256 = b.toNat := by omega
    have hhigh : (b.toNat + 256 * ofLittleEndian rest) / 256 = ofLittleEndian rest := by omega
    rw [ofLittleEndian, List.length_cons, littleEndian, hlow, hhigh, ih, UInt8.ofNat_toNat]

/-- Bytes of a known count are those of the number that they denote. -/
theorem eq_littleEndian {bytes : List UInt8} {count n : Nat} (hcount : bytes.length = count)
    (hn : ofLittleEndian bytes = n) : bytes = littleEndian count n := by
  rw [← hcount, ← hn, littleEndian_ofLittleEndian]

/-! ## The layout -/

/-- The first bytes of the file of a content of some length. -/
def header (length : Nat) : List UInt8 := magic ++ littleEndian 4 version ++ littleEndian 8 length

theorem length_header (length : Nat) : (header length).length = headerSize := by
  rw [header, List.length_append, List.length_append, length_littleEndian, length_littleEndian]
  rfl

/-- A file is its header, the content and the checksum. -/
theorem enclose_eq (content : List UInt8) :
    enclose content = header content.length ++ (content ++ Sha256.digest content) := by
  rw [enclose, header, List.append_assoc _ content]

/-- The header tells the length of the content, if that is a word. -/
theorem header_inj {m n : Nat} (hm : m < UInt64.size) (hn : n < UInt64.size)
    (h : header m = header n) : m = n := by
  have hbytes : littleEndian 8 m = littleEndian 8 n := List.append_cancel_left h
  calc m = ofLittleEndian (littleEndian 8 m) := (ofLittleEndian_littleEndian hm).symm
    _ = ofLittleEndian (littleEndian 8 n) := by rw [hbytes]
    _ = n := ofLittleEndian_littleEndian hn

/-- The content is read from exactly those bytes that are written around it. -/
theorem contentOf_eq_ok_iff {bytes content : List UInt8} :
    contentOf bytes = .ok content ↔ content.length < UInt64.size ∧ bytes = enclose content := by
  constructor
  · intro h
    rw [contentOf, contentBy_eq (serves_plain _)] at h
    simp only [ne_eq, ite_not] at h
    -- One check after the other has passed, in the order in which the reader makes them.
    split at h
    · cases h
    split at h
    case isFalse => cases h
    split at h
    case isFalse => cases h
    split at h
    case isFalse => cases h
    split at h
    case isFalse => cases h
    rename_i hsize hmagic hversion hlength hchecksum
    obtain rfl := Except.ok.inj h
    set held := bytes.length - (headerSize + checksumSize) with hheld
    have hbytes : headerSize + checksumSize + held = bytes.length := by omega
    have hheader : headerSize = 16 := rfl
    have hsum : checksumSize = 32 := rfl
    have hcount : ((bytes.drop headerSize).take held).length = held := by
      rw [List.length_take, List.length_drop]
      omega
    -- The length in the header is a word, and it is the length of the content.
    have hword : held < UInt64.size := by
      have hlt := ofLittleEndian_lt ((bytes.drop 8).take 8)
      have height : ((bytes.drop 8).take 8).length = 8 := by
        rw [List.length_take, List.length_drop]
        omega
      rw [hlength, height] at hlt
      exact hlt
    refine ⟨by rw [hcount]; exact hword, ?_⟩
    -- Cut the bytes where the reader looked, and put in what it found at each place.
    have hfour : (bytes.drop 4).take 4 = littleEndian 4 version := by
      refine eq_littleEndian ?_ hversion
      rw [List.length_take, List.length_drop]
      omega
    have height : (bytes.drop 8).take 8 = littleEndian 8 held := by
      refine eq_littleEndian ?_ hlength
      rw [List.length_take, List.length_drop]
      omega
    have hfront : bytes.take headerSize = header held := by
      calc bytes.take headerSize
          = bytes.take 4 ++ ((bytes.drop 4).take 4 ++ (bytes.drop 8).take 8) := by
            rw [hheader, show (16 : Nat) = 4 + (4 + 8) from rfl, List.take_add, List.take_add,
              List.drop_drop]
        _ = header held := by rw [hmagic, hfour, height, header, List.append_assoc]
    rw [enclose_eq, hcount, hchecksum, ← hfront, ← List.drop_drop, List.take_append_drop,
      List.take_append_drop]
  · rintro ⟨hword, rfl⟩
    exact contentOf_enclose hword

/-! ## Damage -/

/-- Ways in which the bytes of a file can go wrong: a change in its header or in its checksum, a
missing end, or more bytes behind it. -/
inductive Damaged (bytes : List UInt8) : List UInt8 → Prop
  | inHeader {front : List UInt8} (hlength : front.length = headerSize)
      (hne : front ≠ bytes.take headerSize) : Damaged bytes (front ++ bytes.drop headerSize)
  | inChecksum {rear : List UInt8} (hlength : rear.length = checksumSize)
      (hne : rear ≠ bytes.drop (bytes.length - checksumSize)) :
      Damaged bytes (bytes.take (bytes.length - checksumSize) ++ rear)
  | truncated {size : Nat} (hsize : size < bytes.length) : Damaged bytes (bytes.take size)
  | extended {more : List UInt8} (hmore : more ≠ []) : Damaged bytes (bytes ++ more)

theorem take_enclose (content : List UInt8) :
    (enclose content).take headerSize = header content.length := by
  rw [enclose_eq]
  exact List.take_left' (length_header _)

theorem drop_enclose (content : List UInt8) :
    (enclose content).drop headerSize = content ++ Sha256.digest content := by
  rw [enclose_eq]
  exact List.drop_left' (length_header _)

/-- Two files that start with the same header are equally long. -/
theorem length_eq_of_header {a b : List UInt8} (ha : a.length < UInt64.size)
    (hb : b.length < UInt64.size)
    (h : (enclose a).take headerSize = (enclose b).take headerSize) :
    (enclose a).length = (enclose b).length := by
  rw [take_enclose, take_enclose] at h
  rw [length_enclose, length_enclose, header_inj ha hb h]

/-- A damaged file is not the file of any content. -/
theorem Damaged.ne_enclose {a bytes : List UInt8} (h : Damaged (enclose a) bytes)
    (ha : a.length < UInt64.size) {b : List UInt8} (hb : b.length < UInt64.size) :
    bytes ≠ enclose b := by
  intro heq
  have hsizeA := length_enclose a
  have hsizeB := length_enclose b
  cases h with
  | @inHeader front hlength hne =>
    -- What stands behind the header is the same, so the content is, and then the header.
    rw [drop_enclose, enclose_eq b] at heq
    obtain ⟨rfl, hrest⟩ := List.append_inj heq (hlength.trans (length_header _).symm)
    have hdigest : (Sha256.digest a).length = (Sha256.digest b).length := by
      rw [Sha256.length_digest, Sha256.length_digest]
    obtain ⟨rfl, _⟩ := List.append_inj' hrest hdigest
    exact hne (take_enclose a).symm
  | @inChecksum rear hlength hne =>
    -- What stands before the checksum is the same, so the content is, and then its checksum.
    have hcut : (enclose a).length - checksumSize = (header a.length ++ a).length := by
      rw [hsizeA, List.length_append, length_header]
      omega
    rw [hcut, enclose_eq a, ← List.append_assoc, List.drop_left] at hne
    rw [hcut, enclose_eq a, enclose_eq b, ← List.append_assoc, ← List.append_assoc,
      List.take_left] at heq
    obtain ⟨hfront, rfl⟩ := List.append_inj' heq (hlength.trans (Sha256.length_digest b).symm)
    have hheaders : (header a.length).length = (header b.length).length := by
      rw [length_header, length_header]
    obtain ⟨_, rfl⟩ := List.append_inj hfront hheaders
    exact hne rfl
  | @truncated size hsize =>
    -- What is left would be a file: its header is whole, and tells the length before the cut.
    have hlength := congrArg List.length heq
    rw [List.length_take] at hlength
    have hheader : (enclose a).take headerSize = (enclose b).take headerSize := by
      rw [← heq, List.take_take, Nat.min_eq_left]
      omega
    have hsame := length_eq_of_header ha hb hheader
    omega
  | @extended more hmore =>
    -- The header is untouched, and it tells a shorter length.
    have hlength := congrArg List.length heq
    rw [List.length_append] at hlength
    have hheader : (enclose a).take headerSize = (enclose b).take headerSize := by
      rw [← heq, List.take_append_of_le_length]
      omega
    have hsame := length_eq_of_header ha hb hheader
    exact hmore (List.eq_nil_of_length_eq_zero (by omega))

/-! ## Slices and sums that are checked -/

/-- The sum of two words, if it is one. -/
def sum? (a b : Nat) : Option Nat := if a + b < UInt64.size then some (a + b) else none

/-- Every slice, sum and difference of words is checked: there is none that is out of range. -/
def Access.checked : Access Option where
  slice bytes start stop :=
    if start ≤ stop ∧ stop ≤ bytes.length then some ((bytes.drop start).take (stop - start))
    else none
  sum := Frame.sum?
  difference a b := if b ≤ a then some (a - b) else none
  sum? := Frame.sum?

/-- The content of a state file, read with checks: there is no answer if one of them fails. -/
def contentOf? (bytes : List UInt8) : Option (Except Corruption (List UInt8)) :=
  contentBy .checked bytes

/-- In a file whose size is a word all that the reader needs is in range. -/
theorem serves_checked {bytes : List UInt8} (hsize : bytes.length < UInt64.size) :
    Access.checked.Serves bytes where
  slice _ _ hstart hstop := if_pos ⟨hstart, hstop⟩
  sum _ _ hsum := if_pos (Nat.lt_of_le_of_lt hsum hsize)
  difference _ _ hle _ := if_pos hle
  sum? x y := by
    show (if x + y < UInt64.size then some (x + y) else none) = some bytes.length ↔ _
    -- A sum that overflows is not the size of the file, which is a word.
    split
    · exact Option.some_inj
    · simp only [reduceCtorEq, false_iff]
      omega

/-- No slice is out of range and no sum overflows, whatever the bytes are. -/
theorem contentOf?_eq {bytes : List UInt8} (hsize : bytes.length < UInt64.size) :
    contentOf? bytes = some (contentOf bytes) := by
  unfold contentOf? contentOf
  -- Both readers do what any does that everything is in range for.
  rw [contentBy_eq (serves_checked hsize), contentBy_eq (serves_plain bytes)]
  rfl

end Frame

/-! ## Paths of state files -/

/-- A path that ends in no slash may lead to a file. -/
theorem Path.namesDirectory_join_of_getLast? (p : Path) {q : String} {c : Char}
    (hq : q.toList.getLast? = some c) (hc : c ≠ '/') : (p.join q).namesDirectory = false := by
  obtain ⟨front, hfront⟩ := List.getLast?_eq_some_iff.1 hq
  -- However the two are joined, the last character is that of the name.
  have hend : ∃ before, (p.join q).text.toList = before ++ [c] := by
    unfold Path.join
    split
    · exact ⟨front, hfront⟩
    split
    · exact ⟨p.text.toList ++ front, by simp [hfront]⟩
    · exact ⟨p.text.toList ++ ['/'] ++ front, by simp [hfront]⟩
  obtain ⟨before, hbefore⟩ := hend
  unfold Path.namesDirectory
  rw [hbefore, ← Bool.not_eq_true, List.isSuffixOf_iff_suffix]
  rintro ⟨t, ht⟩
  obtain ⟨_, hlast⟩ := List.append_inj' ht rfl
  exact hc (List.singleton_inj.1 hlast).symm

namespace StateFamily

theorem namesDirectory_fileName (f : StateFamily) (dir : Path) (g : Generation) :
    (dir.join (f.fileName g)).namesDirectory = false := by
  refine Path.namesDirectory_join_of_getLast? dir (c := 't') ?_ (by decide)
  rw [toList_fileName, List.getLast?_append]
  rfl

/-- The next generation is a word. -/
theorem lt_bound_of_nextGeneration {gs : List Generation} {g : Generation}
    (h : nextGeneration gs = .ok g) : g < Generation.bound := by
  unfold nextGeneration at h
  split at h
  · obtain rfl := Except.ok.inj h
    decide
  · split at h
    · obtain rfl := Except.ok.inj h
      assumption
    · cases h

section Files

variable {α : Type} [Document α] {f : StateFamily} {d d' : Disk} {dir : Path} {g : Generation}
  {bytes : List UInt8}

/-! ## Loading -/

/-- A file is unpacked if it is the frame around an envelope of its generation. -/
theorem unpack_eq_ok_iff {e : Envelope α} :
    unpack g bytes = .ok e ↔ e.generation = g ∧ ∃ content : List UInt8,
      content.length < UInt64.size ∧ bytes = Frame.enclose content ∧
        Document.ofBytes content = .ok e := by
  unfold unpack
  constructor
  · intro h
    cases hcontent : Frame.contentOf bytes with
    | error c => simp [hcontent] at h
    | ok content =>
      simp only [hcontent] at h
      split at h
      · cases h
      next envelope hread =>
        split at h
        next hg =>
          obtain rfl := Except.ok.inj h
          -- All checks have passed: the frame, the document and the generation.
          obtain ⟨hword, hbytes⟩ := Frame.contentOf_eq_ok_iff.1 hcontent
          exact ⟨hg, content, hword, hbytes, hread⟩
        next => cases h
  · rintro ⟨hg, content, hword, hbytes, hread⟩
    rw [Frame.contentOf_eq_ok_iff.2 ⟨hword, hbytes⟩]
    dsimp only
    rw [hread]
    exact if_pos hg

theorem load_of_read (h : d.read (dir.join (f.fileName g)) = .ok bytes) :
    f.load d dir g =
      ((unpack g bytes).mapError (.corrupted (dir.join (f.fileName g))) :
        Except Error (Envelope α)) := by
  unfold load
  dsimp only
  rw [h]

/-- A file that is read is loaded or corrupted, never missing. -/
theorem load_cases (h : d.read (dir.join (f.fileName g)) = .ok bytes) :
    (∃ e, f.load d dir g = (.ok e : Except Error (Envelope α)) ∧ unpack g bytes = .ok e) ∨
      ∃ c, f.load d dir g =
        (.error (.corrupted (dir.join (f.fileName g)) c) : Except Error (Envelope α)) := by
  rw [load_of_read h]
  cases hunpack : (unpack g bytes : Except Corruption (Envelope α)) with
  | error c => exact .inr ⟨c, rfl⟩
  | ok e => exact .inl ⟨e, rfl, rfl⟩

theorem load_eq_ok_iff (h : d.read (dir.join (f.fileName g)) = .ok bytes) {e : Envelope α} :
    f.load d dir g = .ok e ↔ unpack g bytes = .ok e := by
  rw [load_of_read h]
  cases (unpack g bytes : Except Corruption (Envelope α)) with
  | error c => simp [Except.mapError]
  | ok e' => simp [Except.mapError]

/-- What is missing is what is not found at its path. -/
theorem load_eq_missing_iff :
    (∃ what, (f.load d dir g : Except Error (Envelope α)) = .error (.missing what)) ↔
      d.find (dir.join (f.fileName g)) = .error .notFound := by
  constructor
  · rintro ⟨what, h⟩
    cases hread : d.read (dir.join (f.fileName g)) with
    | ok bytes =>
      rcases load_cases (α := α) hread with ⟨e, hload, _⟩ | ⟨c, hload⟩
      · rw [hload] at h
        cases h
      · rw [hload] at h
        cases h
    | error fault =>
      unfold load at h
      dsimp only at h
      rw [hread] at h
      -- Of all faults only the one that nothing is there is reported as missing state.
      cases fault <;> cases h
      unfold Disk.read at hread
      split at hread
      · cases hread
      · cases hread
      next hfind => rw [hfind, Except.error.inj hread]
  · intro h
    refine ⟨.file f.label g dir, ?_⟩
    unfold load Disk.read
    dsimp only
    rw [h]

/-! ## Loading what was written -/

/-- What a move into place does to the locations on a disk. -/
theorem Moves.exists_locations {content : List UInt8} (h : f.Moves d dir g content d') :
    ∃ temp target, d.locate (dir.join (f.tempName g)) = .ok temp ∧
      d'.locate (dir.join (f.fileName g)) = .ok target ∧
      (Frame.enclose content).length < Disk.fileSizeBound ∧
      d'.workingDirectory = d.workingDirectory ∧ d.tree.Grows d'.tree ∧
      ∀ m, d'.tree.find? m = if m = target then some (.file (Frame.enclose content))
        else if m = temp then none else d.tree.find? m := by
  obtain ⟨d₁, hwrite, hrename⟩ := h
  obtain ⟨temp, htemp, hfree, hsize, hwd₁, hfind₁⟩ := Disk.write_eq_ok hwrite
  obtain ⟨source, target, moved, hsource, hmoved, htarget, hopen, hwd₂, hfind₂⟩ :=
    Disk.rename_eq_ok hrename
  -- Neither step replaces a directory, so ways stay open.
  have hgrows₁ : d.tree.Grows d₁.tree := by
    intro m hm
    rw [hfind₁, if_neg, hm]
    rintro rfl
    exact hfree hm
  have hgrows₂ : d₁.tree.Grows d'.tree := by
    intro m hm
    rw [hfind₂, if_neg, if_neg, hm]
    · rintro rfl
      rw [hmoved] at hm
      cases hm
    · rintro rfl
      exact hopen hm
  -- The temporary path still leads to what was just written, so that is what is moved.
  obtain rfl : temp = source :=
    Except.ok.inj ((Disk.locate_mono hwd₁ hgrows₁ htemp).symm.trans hsource)
  rw [hfind₁, if_pos rfl] at hmoved
  obtain rfl := FileNode.file.inj (Option.some.inj hmoved)
  refine ⟨temp, target, htemp, Disk.locate_mono hwd₂ hgrows₂ htarget, hsize, hwd₂.trans hwd₁,
    fun m hm => hgrows₂ m (hgrows₁ m hm), ?_⟩
  intro m
  rw [hfind₂, hfind₁]
  by_cases hm : m = temp
  · rw [if_pos hm, if_pos hm]
  · rw [if_neg hm, if_neg hm, if_neg hm]

/-- A file that was moved into place holds what was written of it. -/
theorem Moves.read {content : List UInt8} (h : f.Moves d dir g content d') :
    (Frame.enclose content).length < Disk.fileSizeBound ∧
      d'.read (dir.join (f.fileName g)) = .ok (Frame.enclose content) := by
  obtain ⟨temp, target, _, htarget, hsize, _, _, hfind⟩ := h.exists_locations
  have hfile := Disk.find_file htarget (f.namesDirectory_fileName dir g)
    ((hfind target).trans (if_pos rfl))
  refine ⟨hsize, ?_⟩
  unfold Disk.read
  rw [hfile]

/-- After a write the file holds the frame around the envelope that was written. -/
theorem read_of_write {reason : String} {now : Instant} {x : α}
    (h : f.write d dir reason now x = (.ok g, d')) :
    g < Generation.bound ∧ (Document.bytes (Envelope.mk g reason now x)).length < UInt64.size ∧
      d'.read (dir.join (f.fileName g)) =
        .ok (Frame.enclose (Document.bytes (Envelope.mk g reason now x))) := by
  obtain ⟨d₁, gs, _, _, hnext, hmoves⟩ := write_ok_iff.1 h
  obtain ⟨hsize, hread⟩ := hmoves.read
  refine ⟨lt_bound_of_nextGeneration hnext, ?_, hread⟩
  -- No disk takes a file that long, so the length fits its eight bytes.
  have hbound : Disk.fileSizeBound < UInt64.size := by decide
  rw [Frame.length_enclose] at hsize
  omega

/-- The file that a write leaves is read as the text of its envelope is. -/
theorem load_eq_ok_iff_of_write {reason : String} {now : Instant} {x : α}
    (h : f.write d dir reason now x = (.ok g, d')) {e : Envelope α} :
    f.load d' dir g = .ok e ↔ e.generation = g ∧
      Document.ofText? (Document.text (Envelope.mk g reason now x)) = some e := by
  obtain ⟨_, hword, hread⟩ := read_of_write h
  rw [load_eq_ok_iff hread, unpack_eq_ok_iff, ← ofBytes_bytes_eq_ok_iff]
  refine and_congr_right fun _ => ⟨?_, fun he => ⟨_, hword, rfl, he⟩⟩
  rintro ⟨content, hcontent, hbytes, he⟩
  -- The frame leaves no choice of its content.
  have hsame := Frame.contentOf_enclose hword
  rw [hbytes, Frame.contentOf_enclose hcontent] at hsame
  rwa [← Except.ok.inj hsame]

/-- What is loaded of a file that was written: the same envelope, with what its payload is read as
when the envelope has taken a level. -/
theorem load_of_write_iff {reason : String} {now : Instant} {x : α}
    (h : f.write d dir reason now x = (.ok g, d')) (hnow : now.IsValid) {e : Envelope α} :
    f.load d' dir g = .ok e ↔
      ∃ y, Document.decode (Json.maxDepth - 1) (Document.toJson x).tree = some y ∧
        e = ⟨g, reason, now, y⟩ := by
  obtain ⟨hg, _, _⟩ := read_of_write h
  rw [load_eq_ok_iff_of_write h, ofText?_envelope hg hnow, Option.map_eq_some_iff]
  constructor
  · rintro ⟨_, y, hy, rfl⟩
    exact ⟨y, hy, rfl⟩
  · rintro ⟨y, hy, rfl⟩
    exact ⟨rfl, y, hy, rfl⟩

/-- What was written is loaded if and only if it can be read back from the text of an envelope. -/
theorem load_written_iff {reason : String} {now : Instant} {x : α}
    (h : f.write d dir reason now x = (.ok g, d')) (hnow : now.IsValid) :
    f.load d' dir g = .ok ⟨g, reason, now, x⟩ ↔ Restorable x := by
  rw [load_of_write_iff h hnow, restorable_iff]
  constructor
  · rintro ⟨y, hy, heq⟩
    rw [hy, (Envelope.mk.inj heq).2.2.2]
  · intro hx
    exact ⟨x, hx, rfl⟩

/-- A file that was damaged is corrupted. -/
theorem load_of_damaged {content : List UInt8} (hcontent : content.length < UInt64.size)
    (hdamaged : Frame.Damaged (Frame.enclose content) bytes)
    (hread : d.read (dir.join (f.fileName g)) = .ok bytes) :
    ∃ c, f.load d dir g =
      (.error (.corrupted (dir.join (f.fileName g)) c) : Except Error (Envelope α)) := by
  -- If it were loaded, it would be the file of some content.
  rcases load_cases (α := α) hread with ⟨e, _, hunpack⟩ | hcorrupted
  · obtain ⟨_, found, hfound, hbytes, _⟩ := unpack_eq_ok_iff.1 hunpack
    exact absurd hbytes (hdamaged.ne_enclose hcontent hfound)
  · exact hcorrupted

/-- The bytes of a state file: `MSST`, the version 1 in four bytes, the length of the content in
eight bytes, the content, and its SHA-256. The content is read as an envelope. -/
def IsFileOf (e : Envelope α) (bytes : List UInt8) : Prop :=
  ∃ content : List UInt8, content.length < UInt64.size ∧
    bytes = [0x4d, 0x53, 0x53, 0x54] ++ [1, 0, 0, 0] ++ Frame.littleEndian 8 content.length ++
      content ++ Sha256.digest content ∧
    Document.ofBytes content = .ok e

/-- **Exactly the files that are well-formed are loaded.**

* A file is loaded with an envelope if and only if it is a file of that envelope and the envelope
  has the generation that was asked for. All other files are corrupted. Reading goes out of range
  for no bytes at all.
* State is missing if and only if nothing is found at the path of its file.
* The file that a write leaves is loaded as no other envelope than that with its reason and its
  time, and with what was written if and only if that can be read back from an envelope. So it is
  if the payload is read back from its own text and leaves one level for the envelope.
* That file is corrupted by every change in its header or in its checksum, and by any other
  length. -/
theorem load_accepts_exactly_files (f : StateFamily) (d : Disk) (dir : Path) (g : Generation) :
    (∀ bytes, d.read (dir.join (f.fileName g)) = .ok bytes →
      (∀ e : Envelope α, f.load d dir g = .ok e ↔ e.generation = g ∧ IsFileOf e bytes) ∧
      ((∀ e : Envelope α, f.load d dir g ≠ .ok e) → ∃ c, f.load d dir g =
        (.error (.corrupted (dir.join (f.fileName g)) c) : Except Error (Envelope α))) ∧
      (bytes.length < UInt64.size → Frame.contentOf? bytes = some (Frame.contentOf bytes))) ∧
    ((∃ what, (f.load d dir g : Except Error (Envelope α)) = .error (.missing what)) ↔
      d.find (dir.join (f.fileName g)) = .error .notFound) ∧
    (∀ l, d.locate (dir.join (f.fileName g)) = .ok l →
      (d.find (dir.join (f.fileName g)) = .error .notFound ↔ d.tree.find? l = none)) ∧
    ∀ reason now (x : α) d', f.write d dir reason now x = (.ok g, d') →
      (now.IsValid →
        (∀ e : Envelope α, f.load d' dir g = .ok e → e.reason = reason ∧ e.writtenAt = now) ∧
        (f.load d' dir g = .ok ⟨g, reason, now, x⟩ ↔ Restorable x) ∧
        ∀ [LawfulDocument α], Document.ofText? (Document.text x) = some x →
          (Document.toJson x).depth < Json.maxDepth →
          f.load d' dir g = .ok ⟨g, reason, now, x⟩) ∧
      ∃ bytes, d'.read (dir.join (f.fileName g)) = .ok bytes ∧
        ∀ d'' bytes', Frame.Damaged bytes bytes' →
          d''.read (dir.join (f.fileName g)) = .ok bytes' → ∃ c, f.load d'' dir g =
            (.error (.corrupted (dir.join (f.fileName g)) c) : Except Error (Envelope α)) := by
  refine ⟨?_, load_eq_missing_iff, ?_, ?_⟩
  · intro bytes hread
    refine ⟨?_, ?_, Frame.contentOf?_eq⟩
    · intro e
      rw [load_eq_ok_iff hread, unpack_eq_ok_iff]
      rfl
    · intro hnone
      rcases load_cases (α := α) hread with ⟨e, hload, _⟩ | hcorrupted
      · exact absurd hload (hnone e)
      · exact hcorrupted
  · intro l hl
    constructor
    · intro hfind
      -- A way that ends somewhere finds what is there, be it a directory or a file.
      cases hnode : d.tree.find? l with
      | none => rfl
      | some node =>
        cases node with
        | directory =>
          rw [Disk.find_directory hl hnode] at hfind
          cases hfind
        | file content =>
          rw [Disk.find_file hl (f.namesDirectory_fileName dir g) hnode] at hfind
          cases hfind
    · exact Disk.find_missing hl
  · intro reason now x d' hwrite
    obtain ⟨_, hword, hread⟩ := read_of_write hwrite
    refine ⟨?_, _, hread, ?_⟩
    · intro hnow
      have hwritten := load_written_iff hwrite hnow
      refine ⟨?_, hwritten, fun htext hdepth => hwritten.2 (restorable_of_ofText? htext hdepth)⟩
      intro e hload
      obtain ⟨y, _, rfl⟩ := (load_of_write_iff hwrite hnow).1 hload
      exact ⟨rfl, rfl⟩
    · intro d'' bytes' hdamaged hread'
      exact load_of_damaged hword hdamaged hread'

end Files

/-- The first manifest in a directory that is not there yet. -/
theorem load_first_manifest :
    ∃ d' bytes, StateFamily.write ⟨"manifest-"⟩ ⟨.empty, [], []⟩ ⟨"/data"⟩ "first" ⟨0, 0⟩
        Manifest.empty = (.ok 1, d') ∧
      StateFamily.load ⟨"manifest-"⟩ d' ⟨"/data"⟩ 1 = .ok ⟨1, "first", ⟨0, 0⟩, Manifest.empty⟩ ∧
      d'.read ⟨"/data/manifest-1.st"⟩ = .ok bytes ∧
      ∀ d'', d''.read ⟨"/data/manifest-1.st"⟩ = .ok (bytes ++ [0]) →
        ∃ c, StateFamily.load ⟨"manifest-"⟩ d'' ⟨"/data"⟩ 1 =
          (.error (.corrupted ⟨"/data/manifest-1.st"⟩ c) : Except Error (Envelope Manifest)) := by
  have hwrite : (StateFamily.write ⟨"manifest-"⟩ ⟨.empty, [], []⟩ ⟨"/data"⟩ "first" ⟨0, 0⟩
      Manifest.empty).1 = .ok 1 := by decide +kernel
  have hempty : Manifest.empty.InRange := ⟨by decide, by rintro id g ⟨⟩⟩
  have hpath : (⟨"/data"⟩ : Path).join (StateFamily.fileName ⟨"manifest-"⟩ 1) =
      ⟨"/data/manifest-1.st"⟩ := by decide +kernel
  obtain ⟨_, _, _, hwritten⟩ :=
    load_accepts_exactly_files (α := Manifest) ⟨"manifest-"⟩ ⟨.empty, [], []⟩ ⟨"/data"⟩ 1
  obtain ⟨hload, bytes, hread, hdamaged⟩ :=
    hwritten "first" ⟨0, 0⟩ .empty _ (Prod.ext hwrite rfl)
  rw [hpath] at hread hdamaged
  refine ⟨_, bytes, Prod.ext hwrite rfl, ?_, hread, ?_⟩
  · have hnow : (⟨0, 0⟩ : Instant).IsValid := ⟨by decide, .inl (by decide)⟩
    have hdepth : (Document.toJson Manifest.empty).depth < Json.maxDepth := by decide
    exact (hload hnow).2.2 ((readable_manifest hempty).ofText?_text hdepth.le) hdepth
  · intro d'' hlonger
    exact hdamaged d'' _ (.extended (List.cons_ne_nil _ _)) hlonger

/-- Arrays in as many levels as a reader enters are read from their own text and can be written, but
the file is corrupted: its envelope takes a level. -/
theorem load_nested_corrupted :
    Document.ofText? (Document.text (Json.nested 127)) = some (Json.nested 127) ∧
      ∃ d', StateFamily.write ⟨"value-"⟩ ⟨.empty, [], []⟩ ⟨"/data"⟩ "first" ⟨0, 0⟩
          (Json.nested 127) = (.ok 1, d') ∧
        ∃ c, StateFamily.load ⟨"value-"⟩ d' ⟨"/data"⟩ 1 =
          (.error (.corrupted ⟨"/data/value-1.st"⟩ c) : Except Error (Envelope Json)) := by
  have hdepth : (Document.toJson (Json.nested 127)).depth ≤ Json.maxDepth :=
    (Json.depth_nested 127).le
  have hwrite : (StateFamily.write ⟨"value-"⟩ ⟨.empty, [], []⟩ ⟨"/data"⟩ "first" ⟨0, 0⟩
      (Json.nested 127)).1 = .ok 1 := by decide +kernel
  have hpath : (⟨"/data"⟩ : Path).join (StateFamily.fileName ⟨"value-"⟩ 1) =
      ⟨"/data/value-1.st"⟩ := by decide +kernel
  have hnow : (⟨0, 0⟩ : Instant).IsValid := ⟨by decide, .inl (by decide)⟩
  refine ⟨(readable_nested 127).ofText?_text hdepth, _, Prod.ext hwrite rfl, ?_⟩
  obtain ⟨_, _, hread⟩ := read_of_write (Prod.ext hwrite rfl)
  rcases load_cases (α := Json) hread with ⟨e, hload, _⟩ | hcorrupted
  · -- With a level less nothing is read.
    obtain ⟨y, hy, _⟩ := (load_of_write_iff (Prod.ext hwrite rfl) hnow).1 hload
    have hnone := (Decoder.json_nested 126 127).symm.trans hy
    cases hnone
  · rwa [hpath] at hcorrupted

end StateFamily

end DurableState
