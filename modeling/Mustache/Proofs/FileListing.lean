import Mathlib.Data.List.Sort
import Mathlib.Data.String.Basic
import Mustache.Loader
import Mustache.Proofs.FolderContents

set_option autoImplicit false

namespace Mustache

section Order

variable {text : String} {texts : List String}

theorem mem_insertText_iff {other : String} :
    other ∈ insertText text texts ↔ other = text ∨ other ∈ texts := by
  induction texts with
  | nil => simp [insertText]
  | cons first rest ih => grind [insertText]

theorem pairwise_insertText (increasing : texts.Pairwise (· < ·)) :
    (insertText text texts).Pairwise (· < ·) := by
  induction texts with
  | nil => simp [insertText]
  | cons first rest ih =>
    obtain ⟨below, behind⟩ := List.pairwise_cons.1 increasing
    unfold insertText
    split
    next before =>
      refine List.pairwise_cons.2 ⟨List.forall_mem_cons.2 ⟨before, ?_⟩, increasing⟩
      intro other member
      exact before.trans (below other member)
    next =>
      split
      next => exact increasing
      next onward other =>
        refine List.pairwise_cons.2 ⟨fun next member => ?_, ih behind⟩
        rcases mem_insertText_iff.1 member with rfl | later
        · exact lt_of_le_of_ne (not_lt.1 onward) (Ne.symm other)
        · exact below next later

theorem mem_sortTexts_iff : text ∈ sortTexts texts ↔ text ∈ texts := by
  induction texts with
  | nil => rfl
  | cons first rest ih =>
    rw [sortTexts, List.foldr_cons, ← sortTexts, mem_insertText_iff, ih, List.mem_cons]

theorem sortedLT_sortTexts (texts : List String) : (sortTexts texts).SortedLT := by
  rw [List.sortedLT_iff_pairwise]
  induction texts with
  | nil => exact .nil
  | cons first rest ih => exact pairwise_insertText ih

end Order

/-- An extension of a dot and letters: what follows the dot is no slash and no wildcard. -/
structure PlainExtension (extension : String) : Prop where
  dot : extension.toList.head? = some '.'
  plain : ∀ c ∈ extension.toList, c ≠ '/' ∧ c ≠ '*' ∧ c ≠ '?' ∧ c ≠ '['

section Patterns

namespace NamePiece

theorem readAll_of_plain {text : List Char} (plain : ∀ c ∈ text, c ≠ '*' ∧ c ≠ '?' ∧ c ≠ '[')
    {rounds : Nat} (enough : text.length ≤ rounds) : readAll rounds text = text.map exactly := by
  induction text generalizing rounds with
  | nil => cases rounds <;> rfl
  | cons c rest ih =>
    obtain ⟨rounds, rfl⟩ := Nat.exists_eq_add_of_le' (Nat.lt_of_lt_of_le (Nat.succ_pos _) enough)
    rw [List.forall_mem_cons] at plain
    obtain ⟨⟨star, question, bracket⟩, later⟩ := plain
    rw [readAll, ih later (by simpa using enough), List.map_cons]
    · exact star
    · exact question
    · exact bracket

theorem standFor_exactly {text name : List Char} :
    standFor (text.map exactly) name = true ↔ name = text := by
  induction text generalizing name with
  | nil => simp [standFor]
  | cons c text ih =>
    cases name with
    | nil => simp [standFor]
    | cons d name => simp [standFor, accepts, ih]

theorem someEnd_iff {test : List Char → Bool} {text : List Char} :
    someEnd test text = true ↔ ∃ ending, ending <:+ text ∧ test ending = true := by
  induction text with
  | nil => simp [someEnd]
  | cons c rest ih => simp [someEnd, ih, List.suffix_cons_iff, or_and_right, exists_or]

theorem standFor_ending {text name : List Char} :
    standFor (anyText :: text.map exactly) name = true ↔ text <:+ name := by
  rw [standFor, someEnd_iff]
  simp [standFor_exactly]

end NamePiece

def endingPieces (extension : String) : List NamePiece :=
  .anyText :: extension.toList.map .exactly

variable {extension : String}

theorem segment_of_extension (plain : PlainExtension extension) :
    Segment.ofText? ('*' :: extension.toList) = some (.alike (endingPieces extension)) := by
  have wild : '*' ∉ extension.toList := fun member => (plain.plain _ member).2.1 rfl
  have notStars : '*' :: extension.toList ≠ ['*', '*'] := by
    intro same
    exact wild ((List.cons.inj same).2 ▸ List.mem_singleton_self '*')
  have noStars : occursIn ['*', '*'] ('*' :: extension.toList) = false := by
    rw [← Bool.not_eq_true, occursIn, Option.isSome_iff_exists]
    rintro ⟨⟨before, after⟩, found⟩
    have two := congrArg (List.count '*') (eq_of_aroundFirst? found)
    rw [List.count_cons_self, List.count_eq_zero.2 wild] at two
    simp only [List.count_append, List.count_cons_self] at two
    omega
  have pieces : NamePiece.ofText ('*' :: extension.toList) = endingPieces extension := by
    rw [NamePiece.ofText, List.length_cons, NamePiece.readAll,
      NamePiece.readAll_of_plain (fun c member => (plain.plain c member).2) (Nat.le_refl _)]
    rfl
  simp [Segment.ofText?, notStars, noStars, pieces]

theorem selection_of_extension (plain : PlainExtension extension) :
    Selection.ofText? ("*" ++ extension) =
      some ⟨[.everyFolder, .alike (endingPieces extension)], false⟩ := by
  have noSlash : '/' ∉ '*' :: extension.toList := by
    simpa using fun member => (plain.plain _ member).1 rfl
  have text : ("*" ++ extension).toList = '*' :: extension.toList := by
    rw [String.toList_append]
    rfl
  have written : (cutAt '/' ('*' :: extension.toList)).filter (fun text =>
      text ≠ [] ∧ text ≠ ['.']) = ['*' :: extension.toList] := by
    rw [cutAt_of_notMem noSlash]
    simp
  have last : ('*' :: extension.toList).getLast? ≠ some '/' :=
    fun same => noSlash (List.mem_of_getLast? same)
  rw [Selection.ofText?, text, written, List.mapM_cons, segment_of_extension plain]
  simp [last]

end Patterns

section Folders

mutual

theorem isFolder_of_mem_folders {path : List String} {above : List (String × Entry)}
    {found : Found} : (entry : Entry) → found ∈ Found.folders path above entry →
      found.place.entry.isFolder = true
  | .file content, member => by cases member
  | .folder entries, member => by
      rcases List.mem_cons.1 member with rfl | below
      · rfl
      · exact isFolder_of_mem_foldersAmong entries below

theorem isFolder_of_mem_foldersAmong {path : List String} {above : List (String × Entry)}
    {parent : Entry} {found : Found} : (entries : List (String × Entry)) →
      found ∈ Found.foldersAmong path above parent entries → found.place.entry.isFolder = true
  | [], member => by cases member
  | (name, entry) :: rest, member => by
      rcases List.mem_append.1 member with here | later
      · exact isFolder_of_mem_folders entry here
      · exact isFolder_of_mem_foldersAmong rest later

end

def childPaths (found : List Found) : List (List String) :=
  (found.flatMap Found.children).map Found.path

theorem childPaths_cons (first : Found) (others : List Found) :
    childPaths (first :: others) = first.children.map Found.path ++ childPaths others :=
  List.map_append

theorem childPaths_append (first second : List Found) :
    childPaths (first ++ second) = childPaths first ++ childPaths second := by
  simp [childPaths]

mutual

theorem mem_childPaths_folders_iff (path full : List String) (above : List (String × Entry)) :
    (entry : Entry) → (full ∈ childPaths (Found.folders path above entry) ↔
      ∃ rest ∈ entry.contents, full = path ++ rest)
  | .file content => by simp [childPaths, Found.folders, Entry.contents]
  | .folder entries => by
      have here : full ∈ (Found.children ⟨path, ⟨above, .folder entries⟩⟩).map Found.path ↔
          ∃ item ∈ entries, full = path ++ [item.1] := by
        simp [Found.children, eq_comm]
      rw [Found.folders, childPaths_cons, List.mem_append, here,
        mem_childPaths_foldersAmong_iff path full above (.folder entries) entries]
      simp only [Entry.contents, Entry.mem_contentsOf_iff]
      constructor
      · rintro (⟨item, member, rfl⟩ | ⟨item, member, rest, inside, rfl⟩)
        · exact ⟨_, ⟨item, member, [], rfl, .inl rfl⟩, rfl⟩
        · exact ⟨_, ⟨item, member, rest, rfl, .inr inside⟩, rfl⟩
      · rintro ⟨_, ⟨item, member, rest, rfl, rfl | inside⟩, rfl⟩
        · exact .inl ⟨item, member, rfl⟩
        · exact .inr ⟨item, member, rest, inside, rfl⟩

theorem mem_childPaths_foldersAmong_iff (path full : List String) (above : List (String × Entry))
    (parent : Entry) : (entries : List (String × Entry)) →
      (full ∈ childPaths (Found.foldersAmong path above parent entries) ↔
        ∃ item ∈ entries, ∃ rest ∈ item.2.contents, full = path ++ item.1 :: rest)
  | [] => by simp [childPaths, Found.foldersAmong]
  | (name, entry) :: others => by
      rw [Found.foldersAmong, childPaths_append, List.mem_append, List.exists_mem_cons_iff,
        mem_childPaths_folders_iff (path ++ [name]) full ((name, parent) :: above) entry,
        mem_childPaths_foldersAmong_iff path full above parent others]
      simp only [List.append_assoc, List.singleton_append]

end

theorem exists_find_alike (pieces : List NamePiece) (place : Place) :
    ∃ found, (Selection.mk [.everyFolder, .alike pieces] false).find place = .ok found ∧
      ∀ path, path ∈ found.map Found.path ↔
        path ∈ place.entry.contents ∧
          NamePiece.standFor pieces (path.getLast?.getD "").toList = true := by
  let folders := Found.folders [] place.above place.entry
  have all : folders.filter (·.place.entry.isFolder) = folders :=
    List.filter_eq_self.2 fun found member => isFolder_of_mem_folders place.entry member
  have chosen : folders.mapM (fun found : Found => found.go (.alike pieces)) =
      .ok (folders.map fun found => found.children.filter (Found.isAlike pieces)) :=
    List.mapM_pure
  refine ⟨(folders.map fun found => found.children.filter (Found.isAlike pieces)).flatten, ?_, ?_⟩
  · have first : [(⟨[], place⟩ : Found)].mapM (fun found => found.go .everyFolder) =
        .ok [folders] := rfl
    rw [Selection.find, Found.goAll, first]
    simp only [Bind.bind, Except.bind, List.flatten_cons, List.flatten_nil, List.append_nil,
      Bool.false_or, List.isEmpty_cons, Bool.not_false, if_true, all]
    rw [Found.goAll, chosen]
    rfl
  · intro path
    have below := mem_childPaths_folders_iff [] path place.above place.entry
    simp only [List.nil_append, exists_eq_right'] at below
    rw [← below, childPaths, ← List.flatMap_def]
    simp only [List.mem_map, List.mem_flatMap, List.mem_filter]
    constructor
    · rintro ⟨found, ⟨folder, member, child, alike⟩, rfl⟩
      exact ⟨⟨found, ⟨folder, member, child⟩, rfl⟩, alike⟩
    · rintro ⟨⟨found, ⟨folder, member, child⟩, rfl⟩, alike⟩
      exact ⟨found, ⟨folder, member, child, alike⟩, rfl⟩

end Folders

section Endings

theorem suffix_append_mark_iff {mark : Char} {ending front back : List Char}
    (absent : mark ∉ ending) : ending <:+ front ++ mark :: back ↔ ending <:+ back := by
  have other (piece : List Char) : ending ≠ piece ++ mark :: back := by
    rintro rfl
    simp at absent
  induction front with
  | nil => exact List.suffix_cons_iff.trans (or_iff_right (other []))
  | cons c front ih =>
    exact (List.suffix_cons_iff.trans (or_iff_right (other (c :: front)))).trans ih

theorem suffix_joinWith_iff {mark : Char} {ending : List Char} (absent : mark ∉ ending)
    {pieces : List (List Char)} (nonempty : pieces ≠ []) :
    ending <:+ joinWith mark pieces ↔ ending <:+ pieces.getLast nonempty := by
  induction pieces with
  | nil => exact absurd rfl nonempty
  | cons piece rest ih =>
    cases rest with
    | nil => rfl
    | cons next rest =>
      have later := List.cons_ne_nil next rest
      rw [joinWith_cons_of_ne_nil _ _ later, suffix_append_mark_iff absent, ih later,
        List.getLast_cons later]

theorem endsWith_intercalate_iff {extension : String} (plain : PlainExtension extension)
    {path : List String} (nonempty : path ≠ []) :
    endsWith extension (String.intercalate "/" path) = true ↔
      NamePiece.standFor (endingPieces extension) (path.getLast?.getD "").toList = true := by
  have noSlash : '/' ∉ extension.toList := fun member => (plain.plain _ member).1 rfl
  rw [endingPieces, NamePiece.standFor_ending, endsWith, List.isSuffixOf_iff_suffix,
    toList_intercalate_slash, suffix_joinWith_iff noSlash (by simpa using nonempty),
    List.getLast_map, List.getLast?_eq_getLast_of_ne_nil nonempty, Option.getD_some]

end Endings

namespace FileSearch

variable {search : FileSearch} {base : Path} {segments : List String} {name : String}

/-- A search in a tree of proper names and readable files, for names with a plain extension, where
no path below a base is too long for the system. -/
structure Ordinary (search : FileSearch) : Prop where
  proper : search.disk.root.Proper
  plain : PlainExtension search.extension
  home : ∀ segment ∈ search.disk.home, segment.utf8ByteSize ≤ nameLimit
  bases : ∀ base ∈ search.bases, base.Fits
  below : ∀ base ∈ search.bases, ∀ other ∈ search.bases, ∀ segments,
    (search.disk.at? other segments).isSome → (base.below segments).Fits
  readable : ∀ path content, search.disk.read path = .ok content →
    (decodeText? search.encoding content).isSome

structure Lists (search : FileSearch) (base : Path) (segments : List String) : Prop where
  nonempty : segments ≠ []
  known : ∃ entry, search.disk.at? base segments = some entry
  ending : endsWith search.extension (String.intercalate "/" segments) = true

theorem lists_iff {place : Place} (ordinary : search.Ordinary)
    (found : search.disk.place? base = .ok (some place)) :
    search.Lists base segments ↔ segments ∈ place.entry.contents ∧
      NamePiece.standFor (endingPieces search.extension) (segments.getLast?.getD "").toList =
        true := by
  have proper := Disk.proper_of_place? ordinary.proper found
  have same : search.disk.at? base segments = place.entry.at? segments := by rw [Disk.at?, found]
  rw [proper.mem_contents_iff, ← same]
  constructor
  · rintro ⟨nonempty, known, ending⟩
    exact ⟨⟨nonempty, known⟩, (endsWith_intercalate_iff ordinary.plain nonempty).1 ending⟩
  · rintro ⟨⟨nonempty, known⟩, alike⟩
    exact ⟨nonempty, known, (endsWith_intercalate_iff ordinary.plain nonempty).2 alike⟩

theorem exists_namesBelow (ordinary : search.Ordinary) (member : base ∈ search.bases) :
    ∃ names, search.namesBelow base = .ok names ∧
      ∀ name, name ∈ names ↔
        ∃ segments, search.Lists base segments ∧ name = String.intercalate "/" segments := by
  obtain ⟨reached, found⟩ := Disk.exists_place? (ordinary.bases _ member) ordinary.home
  cases reached with
  | none =>
    refine ⟨[], by simp [namesBelow, found], fun name => ?_⟩
    simp only [List.not_mem_nil, false_iff]
    rintro ⟨segments, ⟨-, ⟨entry, known⟩, -⟩, -⟩
    simp [Disk.at?, found] at known
  | some place =>
    obtain ⟨above, entry⟩ := place
    cases entry with
    | file content =>
      -- Nothing stands below a file.
      refine ⟨[], by simp [namesBelow, found], fun name => ?_⟩
      simp [lists_iff ordinary found, Entry.contents]
    | folder entries =>
      obtain ⟨chosen, selected, same⟩ := exists_find_alike (endingPieces search.extension)
        ⟨above, .folder entries⟩
      have listed (path : List String) :
          path ∈ chosen.map Found.path ↔ search.Lists base path := by
        rw [same, lists_iff ordinary found]
      have text (found : Found) (lists : search.Lists base found.path) :
          found.text = String.intercalate "/" found.path := by
        simp [Found.text, lists.nonempty]
      refine ⟨chosen.map Found.text, ?_, fun name => ?_⟩
      · simp only [namesBelow, found, selection?, selection_of_extension ordinary.plain, selected]
      constructor
      · intro member
        obtain ⟨found, isFound, rfl⟩ := List.mem_map.1 member
        have lists := (listed _).1 (List.mem_map_of_mem isFound)
        exact ⟨found.path, lists, text found lists⟩
      · rintro ⟨segments, lists, rfl⟩
        obtain ⟨found, isFound, rfl⟩ := List.mem_map.1 ((listed _).2 lists)
        exact List.mem_map.2 ⟨found, isFound, text found lists⟩

theorem exists_names (ordinary : search.Ordinary) :
    ∃ names, search.names = .ok names ∧ names.SortedLT ∧
      ∀ name, name ∈ names ↔ ∃ base ∈ search.bases, ∃ segments,
        search.Lists base segments ∧ name = String.intercalate "/" segments := by
  have all (bases : List Path) (members : ∀ base ∈ bases, base ∈ search.bases) :
      ∃ found, bases.mapM search.namesBelow = .ok found ∧
        ∀ name, name ∈ found.flatten ↔ ∃ base ∈ bases, ∃ segments,
          search.Lists base segments ∧ name = String.intercalate "/" segments := by
    induction bases with
    | nil => exact ⟨[], rfl, by simp⟩
    | cons base bases ih =>
      rw [List.forall_mem_cons] at members
      obtain ⟨first, isFirst, same⟩ := exists_namesBelow ordinary members.1
      obtain ⟨others, areOthers, sameOthers⟩ := ih members.2
      refine ⟨first :: others, ?_, fun name => ?_⟩
      · rw [List.mapM_cons, isFirst, areOthers]
        rfl
      · rw [List.flatten_cons, List.mem_append, same, sameOthers, List.exists_mem_cons_iff]
  obtain ⟨found, isFound, same⟩ := all search.bases fun _ member => member
  refine ⟨sortTexts found.flatten, ?_, sortedLT_sortTexts _, fun name => ?_⟩
  · rw [names, isFound]
    rfl
  · rw [mem_sortTexts_iff, same]

def fileBelow? (disk : Disk) (segments : List String) : List Path → Option (Path × List UInt8)
  | [] => none
  | base :: bases =>
      match disk.at? base segments with
      | some (.file content) => some (base.below segments, content)
      | _ => fileBelow? disk segments bases

theorem fileBelow?_eq_none_iff {disk : Disk} {bases : List Path} :
    fileBelow? disk segments bases = none ↔
      ∀ base ∈ bases, ∀ content, disk.at? base segments ≠ some (.file content) := by
  induction bases with
  | nil => simp [fileBelow?]
  | cons base bases ih =>
    rw [List.forall_mem_cons, ← ih, fileBelow?]
    cases known : disk.at? base segments with
    | none => simp
    | some entry => cases entry <;> simp

theorem exists_of_fileBelow? {disk : Disk} {bases : List Path} {path : Path}
    {content : List UInt8} (found : fileBelow? disk segments bases = some (path, content)) :
    ∃ base ∈ bases, disk.at? base segments = some (.file content) ∧ path = base.below segments := by
  induction bases with
  | nil => cases found
  | cons base bases ih =>
    rw [fileBelow?] at found
    split at found
    next here known =>
      cases found
      exact ⟨base, List.mem_cons_self, known, rfl⟩
    next =>
      obtain ⟨other, member, later⟩ := ih found
      exact ⟨other, List.mem_cons_of_mem _ member, later⟩

theorem firstFile?_below {disk : Disk} (named : ∀ name ∈ segments, IsEntryName name)
    (home : ∀ segment ∈ disk.home, segment.utf8ByteSize ≤ nameLimit) {bases : List Path}
    (fits : ∀ base ∈ bases, base.Fits) (below : ∀ base ∈ bases, (base.below segments).Fits) :
    disk.firstFile? (bases.map (·.below segments)) = .ok (fileBelow? disk segments bases) := by
  induction bases with
  | nil => rfl
  | cons base bases ih =>
    rw [List.forall_mem_cons] at fits below
    have reached := Disk.place?_below named fits.1 home below.1
    have later := ih fits.2 below.2
    rw [List.map_cons, Disk.firstFile?, fileBelow?]
    cases found : disk.place? (base.below segments) with
    | error refusal =>
      rw [found] at reached
      cases reached
    | ok place? =>
      rw [found] at reached
      obtain here := Except.ok.inj reached
      rw [← here]
      cases place? with
      | none => exact later
      | some place =>
        obtain ⟨above, entry⟩ := place
        cases entry with
        | file content => rfl
        | folder entries => exact later

theorem find?_of_lists (ordinary : search.Ordinary) (member : base ∈ search.bases)
    (lists : search.Lists base segments) :
    search.find? (String.intercalate "/" segments) =
      .ok (fileBelow? search.disk segments search.bases) := by
  obtain ⟨nonempty, ⟨entry, known⟩, ending⟩ := lists
  have named := Disk.isEntryName_of_at? ordinary.proper known
  have places : search.places (String.intercalate "/" segments) =
      search.bases.map (·.below segments) := by
    rw [FileSearch.places, candidates, if_pos (.inr ending), List.map_eq_flatMap]
    simp only [List.map_cons, List.map_nil, join_intercalate _ nonempty named]
  rw [find?, places]
  exact firstFile?_below named ordinary.home ordinary.bases fun other isBase =>
    ordinary.below other isBase base member segments (by simp [known])

/-- A search gives the text of a file below one of its bases for a name, with the file's path. -/
def Serves (search : FileSearch) (call : Caller) (s : Session) (name : String) : Prop :=
  ∃ base ∈ search.bases, ∃ segments content source,
    name = String.intercalate "/" segments ∧
    search.disk.at? base segments = some (.file content) ∧
    decodeText? search.encoding content = some source ∧
    (Loader.files search).load call (.str name) s =
      (.ok (foundAt (.str source) (some (base.below segments).text)), s)

section Loading

variable (call : Caller) (s : Session)

theorem serves_of_fileBelow? (ordinary : search.Ordinary) (member : base ∈ search.bases)
    (lists : search.Lists base segments) {path : Path} {content : List UInt8}
    (found : fileBelow? search.disk segments search.bases = some (path, content)) :
    search.Serves call s (String.intercalate "/" segments) := by
  obtain ⟨other, isBase, isFile, rfl⟩ := exists_of_fileBelow? found
  have known := Option.isSome_iff_exists.2 lists.known
  have read := Disk.read_below (Disk.isEntryName_of_at? ordinary.proper isFile)
    (ordinary.bases _ isBase) ordinary.home (ordinary.below _ isBase _ member _ known) isFile
  obtain ⟨source, decoded⟩ := Option.isSome_iff_exists.1 (ordinary.readable _ _ read)
  refine ⟨other, isBase, segments, content, source, rfl, isFile, decoded, ?_⟩
  rw [Loader.load, FileSearch.load, loadText, find?_of_lists ordinary member lists, found]
  simp only [decoded]
  rfl

theorem load_of_no_file (ordinary : search.Ordinary) (member : base ∈ search.bases)
    (lists : search.Lists base segments)
    (absent : fileBelow? search.disk segments search.bases = none) :
    ((Loader.files search).load call (.str (String.intercalate "/" segments)) s).1 =
      .error (.notFound (String.intercalate "/" segments)
        (.directories (search.bases.map Path.text))) := by
  rw [Loader.load, FileSearch.load, loadText, find?_of_lists ordinary member lists, absent]
  rfl

end Loading

theorem serves_listed_iff (search : FileSearch) (ordinary : search.Ordinary) (call : Caller)
    (s : Session) :
    ∃ names : List String,
      (Loader.files search).list call s = (.ok (names.map .str), s) ∧
      names.SortedLT ∧
      (∀ name, name ∈ names ↔ ∃ base ∈ search.bases, ∃ segments,
        search.Lists base segments ∧ name = String.intercalate "/" segments) ∧
      (∀ name ∈ names, ¬ search.Serves call s name →
        ((Loader.files search).load call (.str name) s).1 =
          .error (.notFound name (.directories (search.bases.map Path.text)))) ∧
      ((∀ name ∈ names, search.Serves call s name) ↔
        ∀ base ∈ search.bases, ∀ segments entries, search.Lists base segments →
          search.disk.at? base segments = some (.folder entries) →
          ∃ other ∈ search.bases, ∃ content,
            search.disk.at? other segments = some (.file content)) := by
  obtain ⟨names, isNames, increasing, same⟩ := exists_names ordinary
  refine ⟨names, ?_, increasing, same, fun name member unserved => ?_, fun all => ?_,
    fun files => ?_⟩
  · rw [Loader.list, isNames]
    rfl
  · obtain ⟨base, isBase, segments, lists, rfl⟩ := (same name).1 member
    cases found : fileBelow? search.disk segments search.bases with
    | none => exact load_of_no_file call s ordinary isBase lists found
    | some file => exact absurd (serves_of_fileBelow? call s ordinary isBase lists found) unserved
  · intro base isBase segments entries lists isFolder
    have served := all _ ((same _).2 ⟨base, isBase, segments, lists, rfl⟩)
    cases found : fileBelow? search.disk segments search.bases with
    | none =>
      have missing := load_of_no_file call s ordinary isBase lists found
      obtain ⟨_, _, _, _, _, _, _, _, given⟩ := served
      rw [given] at missing
      cases missing
    | some file =>
      obtain ⟨other, isOther, isFile, -⟩ := exists_of_fileBelow? found
      exact ⟨other, isOther, _, isFile⟩
  · intro name member
    obtain ⟨base, isBase, segments, lists, rfl⟩ := (same name).1 member
    have file : ∃ other ∈ search.bases, ∃ content,
        search.disk.at? other segments = some (.file content) := by
      obtain ⟨entry, known⟩ := lists.known
      cases entry with
      | file content => exact ⟨base, isBase, content, known⟩
      | folder entries => exact files base isBase segments entries lists known
    cases found : fileBelow? search.disk segments search.bases with
    | none =>
      obtain ⟨other, isOther, content, isFile⟩ := file
      exact absurd isFile (fileBelow?_eq_none_iff.1 found other isOther content)
    | some file => exact serves_of_fileBelow? call s ordinary isBase lists found

end FileSearch

section FolderNamedLikeTemplate

/-- In the folder `t` a template and a folder with the extension in its name, and in the folder `u`
a template of this name. -/
def folderAndTemplates : Disk where
  root := .folder [
    ("t", .folder [("a.mustache", .file []), ("d.mustache", .folder [])]),
    ("u", .folder [("d.mustache", .file [])])]

theorem proper_folderAndTemplates : folderAndTemplates.root.Proper := by
  have t : IsEntryName "t" := by constructor <;> decide
  have u : IsEntryName "u" := by constructor <;> decide
  have a : IsEntryName "a.mustache" := by constructor <;> decide
  have d : IsEntryName "d.mustache" := by constructor <;> decide
  have empty : (Entry.folder []).Proper := .folder .nil (by simp) (by simp)
  refine .folder (by decide) (by simp [t, u]) ?_
  simp only [List.forall_mem_cons, List.not_mem_nil, false_imp_iff, implies_true, and_true]
  refine ⟨.folder (by decide) (by simp [a, d]) ?_, .folder (by decide) (by simp [d]) ?_⟩
  · simpa using ⟨.file [], empty⟩
  · simpa using .file []

theorem mem_of_folderAndTemplates {base : Path} {segments : List String}
    (known : base = { segments := ["t"] } ∨ base = { segments := ["u"] })
    (found : (folderAndTemplates.at? base segments).isSome) :
    segments = [] ∨ segments = ["a.mustache"] ∨ segments = ["d.mustache"] := by
  have reached : ∃ place, folderAndTemplates.place? base = .ok (some place) ∧
      place.entry.contents ⊆ [["a.mustache"], ["d.mustache"]] := by
    rcases known with rfl | rfl
    · exact ⟨_, rfl, by decide⟩
    · exact ⟨_, rfl, by decide⟩
  obtain ⟨place, reached, contents⟩ := reached
  have below := Disk.mem_contents_of_at? proper_folderAndTemplates reached found
  exact below.imp_right fun inside => by simpa using contents inside

theorem ordinary_folderAndTemplates {bases : List Path}
    (known : ∀ base ∈ bases, base = { segments := ["t"] } ∨ base = { segments := ["u"] }) :
    FileSearch.Ordinary { disk := folderAndTemplates, bases, encoding := .latin1 } where
  proper := proper_folderAndTemplates
  plain := show PlainExtension ".mustache" from { dot := rfl, plain := by simp }
  home := by simp [folderAndTemplates]
  bases := by
    intro base member
    rcases known base member with rfl | rfl <;> constructor <;> decide
  below := by
    intro base isBase other isOther segments found
    have short := mem_of_folderAndTemplates (known other isOther) found
    rcases known base isBase with rfl | rfl <;> rcases short with rfl | rfl | rfl <;>
      constructor <;> decide
  readable := fun _ _ _ => rfl

/-- The name of the folder is served as well, since there is a template of this name in `u`. -/
theorem FileSearch.serves_listed_of_folderAndTemplates :
    let search : FileSearch :=
      { disk := folderAndTemplates, bases := [{ segments := ["t"] }, { segments := ["u"] }],
        encoding := .latin1 }
    ∃ names : List String,
      (Loader.files search).list (fun _ _ => pure .null) {} = (.ok (names.map .str), {}) ∧
      ∀ name ∈ names, search.Serves (fun _ _ => pure .null) {} name := by
  intro search
  obtain ⟨names, listed, -, -, -, served⟩ :=
    search.serves_listed_iff (ordinary_folderAndTemplates (by simp)) (fun _ _ => pure .null) {}
  refine ⟨names, listed, served.2 fun base isBase segments entries lists isFolder => ?_⟩
  have known : base = { segments := ["t"] } ∨ base = { segments := ["u"] } := by
    simpa [search] using isBase
  rcases mem_of_folderAndTemplates known (Option.isSome_iff_exists.2 ⟨_, isFolder⟩) with
    rfl | rfl | rfl
  · exact absurd rfl lists.nonempty
  · rcases known with rfl | rfl <;> cases isFolder
  · exact ⟨{ segments := ["u"] }, by simp [search], [], rfl⟩

/-- Where a folder alone has the extension in its name, it is listed as a template and not found. -/
theorem FileSearch.folder_listed_not_found :
    let search : FileSearch :=
      { disk := folderAndTemplates, bases := [{ segments := ["t"] }], encoding := .latin1 }
    let call : Caller := fun _ _ => pure .null
    search.Ordinary ∧
      (Loader.files search).list call {} = (.ok [.str "a.mustache", .str "d.mustache"], {}) ∧
      ((Loader.files search).load call (.str "d.mustache") {}).1 =
        .error (.notFound "d.mustache" (.directories ["t"])) := by
  refine ⟨ordinary_folderAndTemplates (by simp), ?_, ?_⟩
  · rfl
  · rfl

end FolderNamedLikeTemplate

end Mustache
