import UnionAtlas.Files.Loading
import UnionAtlas.Proofs.Files.Latest
import UnionAtlas.Proofs.Files.LineEnds

/-!
# Text from disk

A file that is read loses one byte order mark at its start and the carriage returns that stand right
before a line feed in the rest, and nothing else: lines are kept, and the flags say which of the two
was done. Each is done once. So text that was read can start with a mark again, and hold a carriage
return before a line feed again, in the cases told here; in all other cases it is read back from
disk as it is.
-/

namespace UnionAtlas

/-- The byte order mark that a text starts with, if it does. -/
def leadingMark (bytes : Bytes) : Bytes :=
  if byteOrderMark <+: bytes then byteOrderMark else []

/-- The text behind its leading mark. -/
def unmarked (bytes : Bytes) : Bytes :=
  bytes.drop (leadingMark bytes).length

/-- A text without a mark at its start and without a carriage return before a line feed. -/
structure NormalText (content : Bytes) : Prop where
  unmarked : ¬ byteOrderMark <+: content
  single : ¬ ∃ k, ReturnAt content k

variable {bytes content : Bytes}

theorem unmarked_append (rest : Bytes) : unmarked (byteOrderMark ++ rest) = rest := by
  rw [unmarked, leadingMark, if_pos (List.prefix_append byteOrderMark rest), List.drop_left]

theorem unmarked_of_plain (plain : ¬ byteOrderMark <+: bytes) : unmarked bytes = bytes := by
  rw [unmarked, leadingMark, if_neg plain]
  rfl

theorem leadingMark_append_unmarked (bytes : Bytes) :
    leadingMark bytes ++ unmarked bytes = bytes := by
  by_cases marked : byteOrderMark <+: bytes
  · obtain ⟨rest, rfl⟩ := marked
    rw [unmarked_append, leadingMark, if_pos (List.prefix_append byteOrderMark rest)]
  · rw [unmarked_of_plain marked, leadingMark, if_neg marked, List.nil_append]

theorem dropMark_eq (bytes : Bytes) :
    dropMark bytes = (unmarked bytes, decide (byteOrderMark <+: bytes)) := by
  rw [dropMark]
  by_cases marked : byteOrderMark <+: bytes
  · rw [if_pos (List.isPrefixOf_iff_prefix.mpr marked), unmarked, leadingMark, if_pos marked,
      decide_eq_true marked]
  · rw [if_neg (mt List.isPrefixOf_iff_prefix.mp marked), unmarked_of_plain marked,
      decide_eq_false marked]

theorem not_mem_leadingMark (bytes : Bytes) : lineFeed ∉ leadingMark bytes := by
  rw [leadingMark]
  split
  · decide
  · exact List.not_mem_nil

theorem count_lineFeed_unmarked (bytes : Bytes) :
    (unmarked bytes).count lineFeed = bytes.count lineFeed := by
  conv_rhs => rw [← leadingMark_append_unmarked bytes]
  rw [List.count_append, List.count_eq_zero.mpr (not_mem_leadingMark bytes), Nat.zero_add]

/-- The mark is on the first line. -/
theorem lineAt_unmarked (bytes : Bytes) (k : Nat) :
    lineAt (unmarked bytes) k = lineAt bytes ((leadingMark bytes).length + k) := by
  have front := congrArg (List.take ((leadingMark bytes).length + k))
    (leadingMark_append_unmarked bytes)
  rw [List.take_length_add_append] at front
  rw [lineAt, lineAt, ← front, List.count_append,
    List.count_eq_zero.mpr (not_mem_leadingMark bytes), Nat.zero_add]

/-- A mark holds no carriage return, so it takes part in no pair. -/
theorem exists_two_returns_unmarked :
    (∃ k, (unmarked bytes)[k]? = some carriageReturn ∧ ReturnAt (unmarked bytes) (k + 1)) ↔
      ∃ k, bytes[k]? = some carriageReturn ∧ ReturnAt bytes (k + 1) := by
  by_cases marked : byteOrderMark <+: bytes
  · obtain ⟨rest, rfl⟩ := marked
    rw [unmarked_append]
    constructor
    · rintro ⟨k, stands⟩
      exact ⟨k + 3, stands⟩
    · rintro ⟨k, back, stands⟩
      match k with
      | 0 | 1 | 2 => exact absurd (Option.some.inj back) (by decide)
      | k + 3 => exact ⟨k, back, stands⟩
  · rw [unmarked_of_plain marked]

theorem prefix_unmarked_iff :
    byteOrderMark <+: unmarked bytes ↔ byteOrderMark ++ byteOrderMark <+: bytes := by
  by_cases marked : byteOrderMark <+: bytes
  · obtain ⟨rest, rfl⟩ := marked
    rw [unmarked_append, List.prefix_append_right_inj]
  · rw [unmarked_of_plain marked]
    constructor
    · intro front
      exact absurd front marked
    · intro front
      exact absurd ((List.prefix_append byteOrderMark byteOrderMark).trans front) marked

/-- Reading leaves normal text alone, and changes any other. -/
theorem dropReturns_unmarked_eq_self_iff :
    dropReturns (unmarked content) = content ↔ NormalText content := by
  constructor
  · intro same
    have plain : ¬ byteOrderMark <+: content := by
      rintro ⟨rest, rfl⟩
      rw [unmarked_append] at same
      have shorter := length_dropReturns_le rest
      rw [same, List.length_append] at shorter
      exact absurd shorter (by simp [byteOrderMark])
    rw [unmarked_of_plain plain] at same
    exact ⟨plain, dropReturns_eq_self_iff.mp same⟩
  · intro normal
    rw [unmarked_of_plain normal.unmarked]
    exact dropReturns_eq_self_iff.mpr normal.single

namespace FileSet

variable {disk : Disk} {onDisk : Bytes}

/-- The flags of text from disk: those asked for, and one for each change that was made. -/
def loadedFlags (bytes : Bytes) (flags : FileFlags) : FileFlags :=
  flags ||| (if byteOrderMark <+: bytes then FileFlags.hadMark else 0)
    ||| (if ∃ k, ReturnAt (unmarked bytes) k then FileFlags.hadReturns else 0)

theorem addLoaded_eq (fs : FileSet) (path bytes : Bytes) (flags : FileFlags) :
    fs.addLoaded path bytes flags =
      fs.add path (dropReturns (unmarked bytes)) (loadedFlags bytes flags) := by
  rw [addLoaded, dropMark_eq, loadedFlags]
  simp only [decide_eq_true_eq, hasReturns_iff]
  congr 1
  by_cases marked : byteOrderMark <+: bytes
  · by_cases returns : ∃ k, ReturnAt (unmarked bytes) k
    · rw [if_pos marked, if_pos returns, if_pos marked, if_pos returns]
    · rw [if_pos marked, if_neg returns, if_pos marked, if_neg returns, UInt8.or_zero]
  · by_cases returns : ∃ k, ReturnAt (unmarked bytes) k
    · rw [if_neg marked, if_pos returns, if_neg marked, if_pos returns, UInt8.or_zero]
    · rw [if_neg marked, if_neg returns, if_neg marked, if_neg returns, UInt8.or_zero,
        UInt8.or_zero]

theorem load_eq (found : disk.content onDisk = .ok bytes) (fs : FileSet) (path : Bytes)
    (flags : FileFlags) :
    ∃ longer f, fs.load disk path onDisk flags = .ok (fs.size, longer) ∧
      longer.get? fs.size = some f ∧ f.content = dropReturns (unmarked bytes) ∧
      f.lines = newlineOffsets 0 f.content ∧ f.digest = Sha256.digest f.content ∧
      f.flags = loadedFlags bytes flags := by
  let content := dropReturns (unmarked bytes)
  let f : SourceFile :=
    { id := fs.size, path := Path.clean path, content, lines := newlineOffsets 0 content,
      digest := Sha256.digest content, flags := loadedFlags bytes flags }
  refine ⟨fs.push f, f, ?_, get?_push_self fs f, rfl, rfl, rfl, rfl⟩
  rw [load, found, Except.map, addLoaded_eq]
  rfl

/-- Reading removes one leading mark, and from the rest the carriage returns right before a line
feed: each remaining byte comes to stand at the place that its offset has among the kept ones, and
on the line it was on. The flags tell what was removed. -/
theorem load_drops_mark_and_returns (found : disk.content onDisk = .ok bytes) (fs : FileSet)
    (path : Bytes) (flags : FileFlags) :
    ∃ longer f, fs.load disk path onDisk flags = .ok (fs.size, longer) ∧
      longer.get? fs.size = some f ∧
      bytes = leadingMark bytes ++ unmarked bytes ∧
      f.content = (keptOffsets (unmarked bytes)).filterMap ((unmarked bytes)[·]?) ∧
      f.content = replacePairs (unmarked bytes) ∧
      f.content.count lineFeed = bytes.count lineFeed ∧
      f.lines.length = bytes.count lineFeed ∧
      (∀ j k, (keptOffsets (unmarked bytes))[j]? = some k →
        f.content[j]? = (unmarked bytes)[k]? ∧
        lineAt f.content j = lineAt bytes ((leadingMark bytes).length + k) ∧
        (f.content.length < 2 ^ 32 →
          (LineCol.ofOffset f.lines j.toUInt32).line.toNat =
            lineAt bytes ((leadingMark bytes).length + k))) ∧
      f.flags = flags
        ||| (if byteOrderMark <+: bytes then FileFlags.hadMark else 0)
        ||| (if ∃ k, ReturnAt (unmarked bytes) k then FileFlags.hadReturns else 0) := by
  obtain ⟨longer, f, loaded, added, content, lines, -, flagged⟩ := load_eq found fs path flags
  have feeds : f.content.count lineFeed = bytes.count lineFeed := by
    rw [content, count_lineFeed_dropReturns, count_lineFeed_unmarked]
  refine ⟨longer, f, loaded, added, (leadingMark_append_unmarked bytes).symm, ?_, ?_, feeds, ?_, ?_,
    flagged⟩
  · rw [content, dropReturns_eq_filterMap]
  · rw [content, dropReturns_eq_replacePairs]
  · rw [lines, length_newlineOffsets, feeds]
  · intro j k kept
    obtain ⟨same, line⟩ := kept_byte kept
    rw [← content] at same line
    rw [← lineAt_unmarked, ← line]
    refine ⟨same, rfl, ?_⟩
    intro small
    have inside : j < f.content.length := content ▸ lt_length_of_kept kept
    have word : j.toUInt32.toNat = j := toNat_toUInt32 (by omega)
    have fits : Placeable f.content j.toUInt32 := by
      intro final
      omega
    rw [lines, (LineCol.tells_ofOffset small fits).line, word, lineAt]

/-- A mark, two carriage returns before a line feed, a lone line feed, and a carriage return at the
end. -/
theorem load_drops_mark_and_one_return :
    let bytes : Bytes := [0xEF, 0xBB, 0xBF, 0x0D, 0x0D, 0x0A, 0x61, 0x0A, 0x0D]
    let disk : Disk := { current := [], nodes := [([text "a"], .file bytes)] }
    disk.content (text "a") = .ok bytes ∧
      ∃ longer f, empty.load disk (text "b") (text "a") FileFlags.misc = .ok (0, longer) ∧
        longer.get? 0 = some f ∧ f.content = [0x0D, 0x0A, 0x61, 0x0A, 0x0D] ∧
        f.lines.length = 2 ∧ lineAt f.content 2 = lineAt bytes 6 ∧
        f.flags = FileFlags.misc ||| FileFlags.hadMark ||| FileFlags.hadReturns := by
  intro bytes disk
  have found : disk.content (text "a") = .ok bytes := by decide
  obtain ⟨longer, f, loaded, added, -, content, -, -, lines, kept, flagged⟩ :=
    load_drops_mark_and_returns found empty (text "b") FileFlags.misc
  refine ⟨found, longer, f, loaded, added, content.trans (by decide), lines.trans (by decide), ?_,
    flagged.trans (by decide)⟩
  exact (kept 2 3 (by decide)).2.1

/-- What is read a second time is left as it is if it is normal text, and only then. -/
theorem reload_unchanged_iff {fs : FileSet} {path : Bytes} {flags : FileFlags}
    (found : disk.content onDisk = .ok content) :
    (∃ longer f, fs.load disk path onDisk flags = .ok (fs.size, longer) ∧
      longer.get? fs.size = some f ∧ f.content = content ∧ f.digest = Sha256.digest content ∧
      f.flags = flags) ↔ NormalText content := by
  obtain ⟨longer, f, loaded, added, same, -, digest, flagged⟩ := load_eq found fs path flags
  constructor
  · rintro ⟨longer', f', loaded', added', same', -, -⟩
    rw [loaded] at loaded'
    obtain rfl : longer = longer' := congrArg Prod.snd (Except.ok.inj loaded')
    rw [added] at added'
    obtain rfl := Option.some.inj added'
    exact dropReturns_unmarked_eq_self_iff.mp (same.symm.trans same')
  · intro normal
    rw [dropReturns_unmarked_eq_self_iff.mpr normal] at same
    refine ⟨longer, f, loaded, added, same, same ▸ digest, ?_⟩
    have single := normal.single
    rw [flagged, loadedFlags, unmarked_of_plain normal.unmarked, if_neg normal.unmarked,
      if_neg single, UInt8.or_zero, UInt8.or_zero]

/-- Text that was read holds a pair of a carriage return and a line feed exactly if two carriage
returns stood before a line feed on disk, and starts with a mark exactly if there were two. If
neither is so, and only then, it is normal, and can be written to disk and read again unchanged. -/
theorem loaded_text_normal_unless_doubled (found : disk.content onDisk = .ok bytes) (fs : FileSet)
    (path : Bytes) (flags : FileFlags) :
    ∃ longer f, fs.load disk path onDisk flags = .ok (fs.size, longer) ∧
      longer.get? fs.size = some f ∧
      ((∃ k, ReturnAt f.content k) ↔
        ∃ k, bytes[k]? = some carriageReturn ∧ ReturnAt bytes (k + 1)) ∧
      (byteOrderMark <+: f.content ↔ byteOrderMark ++ byteOrderMark <+: bytes) ∧
      ∀ (fs' : FileSet) (disk' : Disk) (path' onDisk' : Bytes) (flags' : FileFlags),
        disk'.content onDisk' = .ok f.content →
        ((∃ longer' f', fs'.load disk' path' onDisk' flags' = .ok (fs'.size, longer') ∧
            longer'.get? fs'.size = some f' ∧ f'.content = f.content ∧ f'.digest = f.digest ∧
            f'.flags = flags') ↔
          NormalText f.content) := by
  obtain ⟨longer, f, loaded, added, content, -, digest, -⟩ := load_eq found fs path flags
  have noLineEnd : ∀ b ∈ byteOrderMark, b ≠ carriageReturn ∧ b ≠ lineFeed := by
    simp [byteOrderMark, carriageReturn, lineFeed]
  refine ⟨longer, f, loaded, added, ?_, ?_, ?_⟩
  · rw [content, exists_returnAt_dropReturns, exists_two_returns_unmarked]
  · rw [content, prefix_dropReturns_iff noLineEnd, prefix_unmarked_iff]
  · intro fs' disk' path' onDisk' flags' again
    rw [digest]
    exact reload_unchanged_iff again

/-- A mark and a lone carriage return: what is read is normal, and unchanged when read again. -/
theorem loaded_text_normal_with_lone_return :
    let bytes : Bytes := [0xEF, 0xBB, 0xBF, 0x0D, 0x61, 0x0D, 0x0A]
    let disk : Disk := { current := [], nodes := [([text "a"], .file bytes)] }
    disk.content (text "a") = .ok bytes ∧
      ∃ longer f, empty.load disk (text "a") (text "a") 0 = .ok (0, longer) ∧
        longer.get? 0 = some f ∧ NormalText f.content ∧
        ∃ longer' f',
          longer.load { disk with nodes := [([text "a"], .file f.content)] }
            (text "a") (text "a") FileFlags.misc = .ok (longer.size, longer') ∧
          longer'.get? longer.size = some f' ∧ f'.content = f.content ∧ f'.digest = f.digest ∧
          f'.flags = FileFlags.misc := by
  intro bytes disk
  have found : disk.content (text "a") = .ok bytes := by decide
  obtain ⟨longer, f, loaded, added, pairs, marks, again⟩ :=
    loaded_text_normal_unless_doubled found empty (text "a") 0
  have single : ¬ ∃ k, bytes[k]? = some carriageReturn ∧ ReturnAt bytes (k + 1) := by
    rintro ⟨k, back, pair⟩
    have none : ∀ k < 7, ¬ (bytes[k]? = some carriageReturn ∧ ReturnAt bytes (k + 1)) := by decide
    exact none k (List.getElem?_eq_some_iff.mp back).1 ⟨back, pair⟩
  have normal : NormalText f.content := ⟨mt marks.mp (by decide), mt pairs.mp single⟩
  exact ⟨found, longer, f, loaded, added, normal, (again longer _ _ _ _ rfl).mpr normal⟩

/-- Two carriage returns before a line feed: only the second is dropped, so text that was read need
not be normal. -/
theorem loaded_text_not_always_normal :
    ¬ ∀ (fs : FileSet) (disk : Disk) (path bytes : Bytes) (flags : FileFlags),
      disk.content path = .ok bytes →
      ∃ longer f, fs.load disk path path flags = .ok (fs.size, longer) ∧
        longer.get? fs.size = some f ∧ NormalText f.content := by
  intro always
  let disk : Disk :=
    { current := [], nodes := [([text "a"], .file [carriageReturn, carriageReturn, lineFeed])] }
  have found : disk.content (text "a") = .ok [carriageReturn, carriageReturn, lineFeed] := by decide
  obtain ⟨longer, f, loaded, added, normal⟩ := always empty disk (text "a") _ 0 found
  obtain ⟨longer', f', loaded', added', content, -⟩ := load_eq found empty (text "a") 0
  rw [loaded] at loaded'
  obtain rfl : longer = longer' := congrArg Prod.snd (Except.ok.inj loaded')
  rw [added] at added'
  obtain rfl := Option.some.inj added'
  apply normal.single
  rw [content]
  exact ⟨0, by decide⟩

end FileSet
end UnionAtlas
