import DurableState.Proofs.Documents
import DurableState.StateFile.Family

/-!
# DurableState.Proofs.StateFile — state files and their names

What is written around a content is taken off again (`contentOf_enclose`), so the file of a payload
that is restorable is unpacked to its envelope (`unpack_enclose`). Which names tell a generation is
said once (`generationOf?_eq_some_iff`); from it, the name of a file tells its generation
(`generationOf?_fileName`), and the names of files that are complete, of those that are not and of
other families are told apart.
-/

namespace DurableState

/-! ## Frames -/

namespace Frame

/-- A number takes as many bytes as it is given. -/
theorem length_littleEndian (count n : Nat) : (littleEndian count n).length = count := by
  induction count generalizing n with
  | zero => rfl
  | succ count ih => rw [littleEndian, List.length_cons, ih]

/-- A number that fits its bytes is read back from them. -/
theorem ofLittleEndian_littleEndian {count n : Nat} (h : n < 256 ^ count) :
    ofLittleEndian (littleEndian count n) = n := by
  induction count generalizing n with
  | zero =>
    rw [Nat.pow_zero] at h
    rw [littleEndian, ofLittleEndian]
    omega
  | succ count ih =>
    -- The first byte is the lowest: what is left has one byte less to fit.
    rw [Nat.pow_succ] at h
    have hbyte : (UInt8.ofNat (n % 256)).toNat = n % 256 := by simp
    rw [littleEndian, ofLittleEndian, ih (by omega), hbyte]
    omega

/-- The frame has the same size around every content. -/
theorem length_enclose (content : List UInt8) :
    (enclose content).length = headerSize + checksumSize + content.length := by
  simp only [enclose, List.length_append, length_littleEndian, Sha256.length_digest, magic,
    List.length_cons, List.length_nil, headerSize, checksumSize]
  omega

/-- What is in range of the bytes is taken and calculated as it is without limits. -/
structure Access.Serves {m : Type → Type} [Monad m] (a : Access m) (bytes : List UInt8) : Prop where
  slice : ∀ start stop, start ≤ stop → stop ≤ bytes.length →
    a.slice bytes start stop = pure ((bytes.drop start).take (stop - start))
  sum : ∀ x y, x + y ≤ bytes.length → a.sum x y = pure (x + y)
  difference : ∀ x y, y ≤ x → x ≤ bytes.length → a.difference x y = pure (x - y)
  sum? : ∀ x y, a.sum? x y = some bytes.length ↔ x + y = bytes.length

/-- What a reader does whose access serves the bytes: no part is ever out of range. -/
theorem contentBy_eq {m : Type → Type} [Monad m] [LawfulMonad m] {a : Access m}
    {bytes : List UInt8} (h : a.Serves bytes) : contentBy a bytes = pure (
    if bytes.length < headerSize + checksumSize then .error (.tooShort bytes.length)
    else if bytes.take 4 ≠ magic then .error .invalidMagic
    else if ofLittleEndian ((bytes.drop 4).take 4) ≠ version then
      .error (.unsupportedVersion (ofLittleEndian ((bytes.drop 4).take 4)))
    else if ofLittleEndian ((bytes.drop 8).take 8) ≠
        bytes.length - (headerSize + checksumSize) then
      .error (.lengthMismatch (ofLittleEndian ((bytes.drop 8).take 8))
        (bytes.length - (headerSize + checksumSize)))
    else if Sha256.digest ((bytes.drop headerSize).take
          (bytes.length - (headerSize + checksumSize))) ≠
        bytes.drop (headerSize + (bytes.length - (headerSize + checksumSize))) then
      .error .checksumMismatch
    else .ok ((bytes.drop headerSize).take (bytes.length - (headerSize + checksumSize)))) := by
  have hheader : headerSize = 16 := rfl
  have hchecksum : checksumSize = 32 := rfl
  unfold contentBy
  dsimp only
  -- A file that is too short is refused before anything is taken from it.
  by_cases hlong : bytes.length < headerSize + checksumSize
  · rw [if_pos hlong, if_pos hlong]
  -- The header is there, so its slices are in range.
  have hmagic : a.slice bytes 0 4 = pure (bytes.take 4) := h.slice 0 4 (by omega) (by omega)
  have hversion : a.slice bytes 4 8 = pure ((bytes.drop 4).take 4) :=
    h.slice 4 8 (by omega) (by omega)
  have hlength : a.slice bytes 8 headerSize = pure ((bytes.drop 8).take 8) :=
    h.slice 8 headerSize (by omega) (by omega)
  have hdifference : a.difference bytes.length (headerSize + checksumSize) =
      pure (bytes.length - (headerSize + checksumSize)) :=
    h.difference _ _ (by omega) (Nat.le_refl _)
  -- The length in the header may be any word, so it is compared by a sum that may overflow.
  have hfits : ∀ n, a.sum? n (headerSize + checksumSize) = some bytes.length ↔
      n = bytes.length - (headerSize + checksumSize) := by
    intro n
    rw [h.sum?]
    omega
  rw [if_neg hlong, if_neg hlong, hmagic, hversion, hlength, hdifference]
  simp only [pure_bind, ne_eq, hfits]
  split
  · rfl
  split
  · rfl
  split
  · rfl
  -- The length fits the file, so the places that are computed from it are in range too.
  rename_i hlength
  rw [Decidable.not_not] at hlength
  rw [hlength]
  have hstop : a.sum headerSize (bytes.length - (headerSize + checksumSize)) =
      pure (headerSize + (bytes.length - (headerSize + checksumSize))) :=
    h.sum _ _ (by omega)
  have hcontent : a.slice bytes headerSize
      (headerSize + (bytes.length - (headerSize + checksumSize))) = pure
      ((bytes.drop headerSize).take (bytes.length - (headerSize + checksumSize))) := by
    rw [h.slice _ _ (by omega) (by omega), Nat.add_sub_cancel_left]
  have hrest : a.slice bytes (headerSize + (bytes.length - (headerSize + checksumSize)))
      bytes.length =
      pure (bytes.drop (headerSize + (bytes.length - (headerSize + checksumSize)))) := by
    rw [h.slice _ _ (by omega) (by omega), List.take_of_length_le]
    rw [List.length_drop]
  rw [hstop, pure_bind, hcontent, pure_bind, hrest, pure_bind]
  split
  · rfl
  · rfl

/-- Without limits everything is in range. -/
theorem serves_plain (bytes : List UInt8) : Access.plain.Serves bytes where
  slice _ _ _ _ := rfl
  sum _ _ _ := rfl
  difference _ _ _ _ := rfl
  sum? _ _ := Option.some_inj

/-- What is written around a content is taken off again. -/
theorem contentOf_enclose {content : List UInt8} (h : content.length < UInt64.size) :
    contentOf (enclose content) = .ok content := by
  have hlength := length_enclose content
  have hfour : magic.length = 4 := rfl
  -- The fields are where they are looked for, in the order in which they were written.
  have hmagic : (enclose content).take 4 = magic := by
    simp only [enclose, List.append_assoc]
    exact List.take_left' hfour
  have hversion : ((enclose content).drop 4).take 4 = littleEndian 4 version := by
    simp only [enclose, List.append_assoc]
    rw [List.drop_left' hfour, List.take_left' (length_littleEndian 4 version)]
  have hheader : ((enclose content).drop 8).take 8 = littleEndian 8 content.length := by
    have hfront : (magic ++ littleEndian 4 version).length = 8 := by
      rw [List.length_append, length_littleEndian]
      rfl
    simp only [enclose, List.append_assoc]
    rw [← List.append_assoc magic, List.drop_left' hfront,
      List.take_left' (length_littleEndian 8 content.length)]
  have hrest : (enclose content).drop headerSize = content ++ Sha256.digest content := by
    have hfront : (magic ++ littleEndian 4 version ++ littleEndian 8 content.length).length =
        headerSize := by
      rw [List.length_append, List.length_append, length_littleEndian, length_littleEndian]
      rfl
    rw [enclose, List.append_assoc _ content, List.drop_left' hfront]
  have hchecksum : (enclose content).drop (headerSize + content.length) =
      Sha256.digest content := by
    rw [← List.drop_drop, hrest, List.drop_left]
  have hheld : (enclose content).length - (headerSize + checksumSize) = content.length := by omega
  rw [contentOf, contentBy_eq (serves_plain _)]
  show ite _ _ _ = _
  rw [if_neg (by omega), if_neg (not_not_intro hmagic), hversion,
    ofLittleEndian_littleEndian (by decide), if_neg (not_not_intro rfl), hheader,
    @ofLittleEndian_littleEndian 8 _ h, hheld, if_neg (not_not_intro rfl), hrest, List.take_left,
    hchecksum, if_neg (not_not_intro rfl)]

end Frame

/-! ## Bytes of documents -/

section Bytes

variable {α : Type} [Document α]

theorem fromUTF8?_toUTF8 (s : String) :
    String.fromUTF8? ⟨s.toUTF8.data.toList.toArray⟩ = some s := by
  unfold String.fromUTF8?
  rw [Array.toArray_toList]
  exact dif_pos s.isValidUTF8

/-- The bytes of a document are read as its text is. -/
theorem ofBytes_bytes_eq_ok_iff {x y : α} :
    Document.ofBytes (Document.bytes x) = .ok y ↔ Document.ofText? (Document.text x) = some y := by
  have hbytes : (Document.ofBytes? (Document.bytes x) : Option α) =
      Document.ofText? (Document.text x) := by
    unfold Document.ofBytes? Document.bytes
    rw [fromUTF8?_toUTF8]
  unfold Document.ofBytes
  rw [hbytes]
  cases (Document.ofText? (Document.text x) : Option α) with
  | none => simp
  | some z => simp

theorem ofBytes_bytes {x : α} (h : Document.ofText? (Document.text x) = some x) :
    Document.ofBytes (Document.bytes x) = .ok x :=
  ofBytes_bytes_eq_ok_iff.2 h

/-- The file of an envelope that can be read back is unpacked to that envelope. -/
theorem unpack_enclose {e : Envelope α} (h : Document.ofText? (Document.text e) = some e)
    (hsize : (Frame.enclose (Document.bytes e)).length < Disk.fileSizeBound) :
    StateFamily.unpack e.generation (Frame.enclose (Document.bytes e)) = .ok e := by
  have hcontent : (Document.bytes e).length < UInt64.size := by
    have hbound : Disk.fileSizeBound < UInt64.size := by decide
    rw [Frame.length_enclose] at hsize
    omega
  unfold StateFamily.unpack
  rw [Frame.contentOf_enclose hcontent]
  dsimp only
  rw [ofBytes_bytes h]
  exact if_pos rfl

/-- What is unpacked has the generation of its file. -/
theorem StateFamily.generation_of_unpack {g : Generation} {bytes : List UInt8} {e : Envelope α}
    (h : unpack g bytes = .ok e) : e.generation = g := by
  unfold unpack at h
  split at h
  · cases h
  · split at h
    · cases h
    · split at h
      -- The frame and the document have passed, and the generation is compared last.
      next hg =>
        obtain rfl := Except.ok.inj h
        exact hg
      next => cases h

end Bytes

/-! ## Names -/

namespace StateFamily

variable {f f' : StateFamily} {g g' : Generation}

/-- The name of a file is the stem, the digits of the generation and the ending. -/
theorem toList_fileName (f : StateFamily) (g : Generation) :
    (f.fileName g).toList = f.stem.toList ++ Decimal.digitChars g ++ ending.toList := by
  simp [fileName, Decimal.text]

/-- The temporary name of a file has an ending more. -/
theorem toList_tempName (f : StateFamily) (g : Generation) :
    (f.tempName g).toList = (f.fileName g).toList ++ tempEnding.toList := by
  simp [tempName]

theorem dropStart?_eq_some_iff {start cs rest : List Char} :
    dropStart? start cs = some rest ↔ cs = start ++ rest := by
  unfold dropStart?
  rw [Option.ite_none_right_eq_some, List.isPrefixOf_iff_prefix, Option.some.injEq]
  constructor
  · rintro ⟨⟨rear, rfl⟩, rfl⟩
    rw [List.drop_left]
  · rintro rfl
    exact ⟨List.prefix_append _ _, List.drop_left⟩

theorem dropEnd?_eq_some_iff {rear cs front : List Char} :
    dropEnd? rear cs = some front ↔ cs = front ++ rear := by
  unfold dropEnd?
  rw [Option.ite_none_right_eq_some, List.isSuffixOf_iff_suffix, Option.some.injEq]
  constructor
  · rintro ⟨⟨start, rfl⟩, rfl⟩
    rw [List.length_append, Nat.add_sub_cancel, List.take_left]
  · rintro rfl
    refine ⟨List.suffix_append _ _, ?_⟩
    rw [List.length_append, Nat.add_sub_cancel, List.take_left]

/-- A name tells a generation if it is the stem, a numeral below the bound, and the ending. -/
theorem generationOf?_eq_some_iff {name : String} : f.generationOf? name = some g ↔
    ∃ digits, name.toList = f.stem.toList ++ digits ++ ending.toList ∧
      Decimal.isNumeral digits = true ∧ Decimal.value digits = g ∧ g < Generation.bound := by
  unfold generationOf? generation?
  simp only [Option.bind_eq_some_iff, dropStart?_eq_some_iff, dropEnd?_eq_some_iff,
    Option.ite_none_right_eq_some, Option.some.injEq]
  constructor
  · rintro ⟨digits, ⟨_, hname, rfl⟩, ⟨hnumeral, hbound⟩, rfl⟩
    exact ⟨digits, by rw [hname, List.append_assoc], hnumeral, rfl, hbound⟩
  · rintro ⟨digits, hname, hnumeral, rfl, hbound⟩
    exact ⟨digits, ⟨_, by rw [hname, List.append_assoc], rfl⟩, ⟨hnumeral, hbound⟩, rfl⟩

/-- The name of a file tells its generation. -/
theorem generationOf?_fileName (f : StateFamily) (hg : g < Generation.bound) :
    f.generationOf? (f.fileName g) = some g :=
  generationOf?_eq_some_iff.2 ⟨_, f.toList_fileName g, Decimal.isNumeral_digitChars g,
    Decimal.value_digitChars g, hg⟩

/-- No two generations have files of one name. -/
theorem fileName_inj (h : f.fileName g = f.fileName g') : g = g' := by
  have hlist := congrArg String.toList h
  -- The stem and the ending are the same, so the digits are.
  rw [toList_fileName, toList_fileName, List.append_left_inj, List.append_right_inj] at hlist
  rw [← Decimal.value_digitChars g, hlist, Decimal.value_digitChars]

/-- A name that tells a generation starts and ends as those of the family do. -/
theorem of_generationOf? {name : String} (h : f.generationOf? name = some g) :
    f.stem.toList <+: name.toList ∧ ending.toList <:+ name.toList := by
  obtain ⟨digits, hname, _⟩ := generationOf?_eq_some_iff.1 h
  rw [hname]
  refine ⟨?_, List.suffix_append _ _⟩
  rw [List.append_assoc]
  exact List.prefix_append _ _

/-- A temporary name does not end as the name of a file does. -/
theorem not_suffix_tempName (f : StateFamily) (g : Generation) :
    ¬ ending.toList <:+ (f.tempName g).toList := by
  intro h
  obtain ⟨front, hfront⟩ := h
  -- The last characters differ.
  have hlast := congrArg List.getLast? hfront
  rw [toList_tempName, List.getLast?_append, List.getLast?_append] at hlast
  exact absurd (Option.some.inj hlast) (by decide)

/-- A temporary name tells no generation, in its own family or another. -/
theorem generationOf?_tempName (f f' : StateFamily) (g : Generation) :
    f.generationOf? (f'.tempName g) = none := by
  cases h : f.generationOf? (f'.tempName g) with
  | none => rfl
  | some g' => exact absurd (of_generationOf? h).2 (f'.not_suffix_tempName g)

/-- No file has the temporary name of another. -/
theorem fileName_ne_tempName (f f' : StateFamily) (g g' : Generation) :
    f.fileName g ≠ f'.tempName g' := by
  intro h
  refine f'.not_suffix_tempName g' ?_
  rw [← h, toList_fileName]
  exact List.suffix_append _ _

/-! ## Families apart -/

/-- Neither family's names start as those of the other. -/
def Apart (f f' : StateFamily) : Prop :=
  ¬ f.stem.toList <+: f'.stem.toList ∧ ¬ f'.stem.toList <+: f.stem.toList

instance (f f' : StateFamily) : Decidable (f.Apart f') := inferInstanceAs (Decidable (_ ∧ _))

theorem stem_prefix_fileName (f : StateFamily) (g : Generation) :
    f.stem.toList <+: (f.fileName g).toList := by
  rw [toList_fileName, List.append_assoc]
  exact List.prefix_append _ _

theorem stem_prefix_tempName (f : StateFamily) (g : Generation) :
    f.stem.toList <+: (f.tempName g).toList := by
  rw [toList_tempName]
  exact (f.stem_prefix_fileName g).trans (List.prefix_append _ _)

/-- No text starts as the names of two families that are apart. -/
theorem Apart.not_prefix (h : f.Apart f') {cs : List Char} (hcs : f'.stem.toList <+: cs) :
    ¬ f.stem.toList <+: cs := by
  intro hf
  -- Of two beginnings of one text the shorter is a beginning of the longer.
  rcases List.prefix_or_prefix_of_prefix hf hcs with hle | hle
  · exact h.1 hle
  · exact h.2 hle

/-- A file of one family tells no generation in the other. -/
theorem Apart.generationOf?_fileName (h : f.Apart f') (g : Generation) :
    f.generationOf? (f'.fileName g) = none := by
  cases hsome : f.generationOf? (f'.fileName g) with
  | none => rfl
  | some g' =>
    exact absurd (of_generationOf? hsome).1 (h.not_prefix (f'.stem_prefix_fileName g))

/-- A file of one family is no temporary file of the other. -/
theorem Apart.isTemp_eq_false (h : f.Apart f') {name : String}
    (hname : f'.stem.toList <+: name.toList) : f.isTemp name = false := by
  have hnot : f.stem.toList.isPrefixOf name.toList = false := by
    rw [Bool.eq_false_iff, ne_eq, List.isPrefixOf_iff_prefix]
    exact h.not_prefix hname
  unfold isTemp
  rw [hnot, Bool.false_and]

/-- Files of two families have different names. -/
theorem Apart.fileName_ne (h : f.Apart f') (g g' : Generation) : f.fileName g ≠ f'.fileName g' := by
  intro heq
  refine h.not_prefix (f'.stem_prefix_fileName g') ?_
  rw [← heq]
  exact f.stem_prefix_fileName g

end StateFamily

end DurableState
