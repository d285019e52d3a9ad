import Mathlib.Data.List.Nodup
import Mustache.Files
import Mustache.Proofs.Data

set_option autoImplicit false

namespace Mustache

structure IsEntryName (name : String) : Prop where
  ne_empty : name ≠ ""
  ne_dot : name ≠ "."
  ne_above : name ≠ ".."
  noSlash : '/' ∉ name.toList
  noNull : '\x00' ∉ name.toList
  short : name.utf8ByteSize ≤ nameLimit

namespace Entry

def at? : List String → Entry → Option Entry
  | [], entry => some entry
  | name :: rest, entry => (entry.child? name).bind (at? rest)

theorem at?_append (entry : Entry) (first second : List String) :
    entry.at? (first ++ second) = (entry.at? first).bind (at? second) := by
  induction first generalizing entry with
  | nil => rfl
  | cons name rest ih =>
    rw [List.cons_append, at?, at?, Option.bind_assoc]
    exact Option.bind_congr fun child _ => ih child

theorem at?_singleton (entry : Entry) (name : String) : entry.at? [name] = entry.child? name := by
  rw [at?]
  cases entry.child? name <;> rfl

inductive Proper : Entry → Prop
  | file (content : List UInt8) : Proper (.file content)
  | folder {entries : List (String × Entry)} (distinct : (entries.map Prod.fst).Nodup)
      (named : ∀ item ∈ entries, IsEntryName item.1) (inside : ∀ item ∈ entries, Proper item.2) :
      Proper (.folder entries)

section Contents

variable {entries : List (String × Entry)} {entry found : Entry} {name : String}
  {path : List String}

theorem mem_contentsOf_iff :
    path ∈ contentsOf entries ↔
      ∃ item ∈ entries, ∃ rest, path = item.1 :: rest ∧ (rest = [] ∨ rest ∈ item.2.contents) := by
  induction entries with
  | nil => simp [contentsOf]
  | cons first others ih =>
    obtain ⟨name, entry⟩ := first
    rw [List.exists_mem_cons_iff, ← ih, contentsOf]
    simp only [List.cons_append, List.mem_cons, List.mem_append, List.mem_map]
    constructor
    · rintro (rfl | ⟨rest, member, rfl⟩ | later)
      · exact .inl ⟨[], rfl, .inl rfl⟩
      · exact .inl ⟨rest, rfl, .inr member⟩
      · exact .inr later
    · rintro (⟨rest, rfl, rfl | inside⟩ | later)
      · exact .inl rfl
      · exact .inr (.inl ⟨rest, inside, rfl⟩)
      · exact .inr (.inr later)

theorem mem_of_lookup (known : entries.lookup name = some found) : (name, found) ∈ entries := by
  obtain ⟨front, back, rfl, -⟩ := List.lookup_eq_some_iff.1 known
  simp

theorem lookup_of_mem (distinct : (entries.map Prod.fst).Nodup)
    (member : (name, found) ∈ entries) : entries.lookup name = some found := by
  obtain ⟨front, back, rfl⟩ := List.append_of_mem member
  rw [List.map_append, List.map_cons, List.nodup_append] at distinct
  refine List.lookup_eq_some_iff.2 ⟨front, back, rfl, fun item before => ?_⟩
  have other := distinct.2.2 item.1 (List.mem_map_of_mem before) name (by simp)
  simpa using other.symm

theorem Proper.of_child? (proper : entry.Proper) (known : entry.child? name = some found) :
    found.Proper ∧ IsEntryName name := by
  cases proper with
  | file content => cases known
  | folder distinct named inside =>
    have member := mem_of_lookup known
    exact ⟨inside _ member, named _ member⟩

theorem Proper.mem_contents_iff (proper : entry.Proper) :
    path ∈ entry.contents ↔ path ≠ [] ∧ ∃ found, entry.at? path = some found := by
  induction proper generalizing path with
  | file content =>
    cases path with
    | nil => simp [contents]
    | cons name rest => simp [contents, at?, child?]
  | @folder entries distinct named inside ih =>
    rw [contents, mem_contentsOf_iff]
    constructor
    · rintro ⟨⟨name, child⟩, member, rest, rfl, below⟩
      refine ⟨List.cons_ne_nil _ _, ?_⟩
      rw [at?, show (Entry.folder entries).child? name = some child from
        lookup_of_mem distinct member]
      rcases below with rfl | below
      · exact ⟨child, rfl⟩
      · exact ((ih _ member).1 below).2
    · rintro ⟨nonempty, found, known⟩
      cases path with
      | nil => exact absurd rfl nonempty
      | cons name rest =>
        obtain ⟨child, here, onward⟩ := Option.bind_eq_some_iff.1 known
        have member := mem_of_lookup here
        refine ⟨(name, child), member, rest, rfl, ?_⟩
        rw [ih _ member]
        by_cases last : rest = []
        · exact .inl last
        · exact .inr ⟨last, found, onward⟩

theorem Proper.of_at? (proper : entry.Proper) (known : entry.at? path = some found) :
    found.Proper ∧ ∀ name ∈ path, IsEntryName name := by
  induction path generalizing entry with
  | nil =>
    obtain rfl := Option.some.inj known
    exact ⟨proper, by simp⟩
  | cons name rest ih =>
    obtain ⟨child, here, onward⟩ := Option.bind_eq_some_iff.1 known
    obtain ⟨properChild, named⟩ := proper.of_child? here
    obtain ⟨properFound, later⟩ := ih properChild onward
    exact ⟨properFound, List.forall_mem_cons.2 ⟨named, later⟩⟩

end Contents

end Entry

inductive Place.Within (root : Entry) : Place → Prop
  | root : Within root ⟨[], root⟩
  | enter {place : Place} {name : String} {child : Entry} (within : Within root place)
      (known : place.entry.child? name = some child) : Within root (place.enter name child)

namespace Place

variable {root : Entry} {place next : Place} {segment : String} {segments : List String}

theorem names_enter (place : Place) (name : String) (child : Entry) :
    (place.enter name child).names = place.names ++ [name] := by
  simp [names, enter]

theorem Within.at?_names (within : place.Within root) :
    root.at? place.names = some place.entry := by
  induction within with
  | root => rfl
  | enter _ known ih =>
    rw [names_enter, Entry.at?_append, ih, Option.bind_some, Entry.at?_singleton]
    exact known

/-- What comes of a step to a name: out of a folder into the one above it, or into an entry of the
folder. -/
inductive Steps (place : Place) (segment : String) : Except Refusal Place → Prop
  | inFile {content : List UInt8} (isFile : place.entry = .file content) :
      Steps place segment (.error .notFolder)
  | top {entries : List (String × Entry)} (isFolder : place.entry = .folder entries)
      (up : segment = "..") (first : place.above = []) : Steps place segment (.ok place)
  | leave {entries : List (String × Entry)} {name : String} {folder : Entry}
      {above : List (String × Entry)} (isFolder : place.entry = .folder entries)
      (up : segment = "..") (left : place.above = (name, folder) :: above) :
      Steps place segment (.ok ⟨above, folder⟩)
  | tooLong {entries : List (String × Entry)} (isFolder : place.entry = .folder entries)
      (down : segment ≠ "..") (long : nameLimit < segment.utf8ByteSize) :
      Steps place segment (.error .tooLong)
  | missing {entries : List (String × Entry)} (isFolder : place.entry = .folder entries)
      (down : segment ≠ "..") (short : segment.utf8ByteSize ≤ nameLimit)
      (absent : entries.lookup segment = none) : Steps place segment (.error .missing)
  | enter {entries : List (String × Entry)} {child : Entry}
      (isFolder : place.entry = .folder entries) (down : segment ≠ "..")
      (short : segment.utf8ByteSize ≤ nameLimit) (known : entries.lookup segment = some child) :
      Steps place segment (.ok (place.enter segment child))

theorem steps_step (place : Place) (segment : String) :
    place.Steps segment (place.step segment) := by
  obtain ⟨above, entry⟩ := place
  cases entry with
  | file content => exact .inFile rfl
  | folder entries =>
    by_cases up : segment = ".."
    · cases above with
      | nil => simpa [Place.step, Entry.isFolder, up] using Steps.top rfl up rfl
      | cons item above => simpa [Place.step, Entry.isFolder, up] using Steps.leave rfl up rfl
    by_cases long : nameLimit < segment.utf8ByteSize
    · simpa [Place.step, Entry.isFolder, up, long] using Steps.tooLong rfl up long
    cases known : entries.lookup segment with
    | none =>
      simpa [Place.step, Entry.isFolder, Entry.child?, up, long, known] using
        Steps.missing rfl up (Nat.not_lt.1 long) known
    | some child =>
      simpa [Place.step, Entry.isFolder, Entry.child?, up, long, known] using
        Steps.enter rfl up (Nat.not_lt.1 long) known

theorem steps_iff {outcome : Except Refusal Place} :
    place.Steps segment outcome ↔ place.step segment = outcome := by
  refine ⟨fun steps => ?_, fun moved => moved ▸ steps_step place segment⟩
  cases steps with
  | inFile isFile => simp [Place.step, Entry.isFolder, isFile]
  | top isFolder up first => simp [Place.step, Entry.isFolder, isFolder, up, first]
  | leave isFolder up left => simp [Place.step, Entry.isFolder, isFolder, up, left]
  | tooLong isFolder down long => simp [Place.step, Entry.isFolder, isFolder, down, long]
  | missing isFolder down short absent =>
    simp [Place.step, Entry.isFolder, Entry.child?, isFolder, down, Nat.not_lt.2 short, absent]
  | enter isFolder down short known =>
    simp [Place.step, Entry.isFolder, Entry.child?, isFolder, down, Nat.not_lt.2 short, known]

theorem Within.step (within : place.Within root) (moved : place.step segment = .ok next) :
    next.Within root := by
  cases steps_iff.2 moved with
  | top => exact within
  | leave isFolder up left =>
    cases within with
    | root => cases left
    | enter within known =>
      cases left
      exact within
  | enter isFolder down short known => exact .enter within (by rw [isFolder]; exact known)

theorem follow_cons (place : Place) (segment : String) (segments : List String) :
    place.follow (segment :: segments) = (place.step segment >>= (follow · segments)) :=
  rfl

theorem follow_append (place : Place) (first second : List String) :
    place.follow (first ++ second) = (place.follow first >>= (follow · second)) :=
  List.foldlM_append

theorem Within.follow (within : place.Within root) (moved : place.follow segments = .ok next) :
    next.Within root := by
  induction segments generalizing place with
  | nil =>
    cases moved
    exact within
  | cons segment segments ih =>
    rw [follow_cons] at moved
    obtain ⟨middle, stepped, onward⟩ := exists_ok_of_bind moved
    exact ih (within.step stepped) onward

theorem step_of_child? {child : Entry} (down : segment ≠ "..")
    (short : segment.utf8ByteSize ≤ nameLimit) (known : place.entry.child? segment = some child) :
    place.step segment = .ok (place.enter segment child) := by
  cases here : place.entry with
  | file content =>
    rw [here] at known
    cases known
  | folder entries =>
    rw [here] at known
    exact steps_iff.1 (.enter here down short known)

theorem step_of_no_child? (named : IsEntryName segment)
    (absent : place.entry.child? segment = none) :
    ∃ refusal, place.step segment = .error refusal ∧ refusal ≠ .tooLong := by
  cases here : place.entry with
  | file content => exact ⟨.notFolder, steps_iff.1 (.inFile here), by simp⟩
  | folder entries =>
    rw [here] at absent
    exact ⟨.missing, steps_iff.1 (.missing here named.ne_above named.short absent), by simp⟩

theorem exists_follow_of_at? {found : Entry} (named : ∀ name ∈ segments, IsEntryName name)
    (known : place.entry.at? segments = some found) :
    ∃ last, place.follow segments = .ok last ∧ last.entry = found := by
  induction segments generalizing place with
  | nil => exact ⟨place, rfl, Option.some.inj known⟩
  | cons segment segments ih =>
    rw [List.forall_mem_cons] at named
    obtain ⟨child, here, onward⟩ := Option.bind_eq_some_iff.1 known
    rw [follow_cons, step_of_child? named.1.ne_above named.1.short here]
    exact @ih (place.enter segment child) named.2 onward

theorem exists_refusal_of_at? (named : ∀ name ∈ segments, IsEntryName name)
    (absent : place.entry.at? segments = none) :
    ∃ refusal, place.follow segments = .error refusal ∧ refusal ≠ .tooLong := by
  induction segments generalizing place with
  | nil => cases absent
  | cons segment segments ih =>
    rw [List.forall_mem_cons] at named
    rw [follow_cons]
    cases here : place.entry.child? segment with
    | none =>
      obtain ⟨refusal, refused, short⟩ := step_of_no_child? named.1 here
      exact ⟨refusal, by rw [refused]; rfl, short⟩
    | some child =>
      rw [Entry.at?, here] at absent
      rw [step_of_child? named.1.ne_above named.1.short here]
      exact @ih (place.enter segment child) named.2 absent

theorem follow_ne_tooLong (short : ∀ segment ∈ segments, segment.utf8ByteSize ≤ nameLimit) :
    place.follow segments ≠ .error .tooLong := by
  induction segments generalizing place with
  | nil => exact nofun
  | cons segment segments ih =>
    rw [List.forall_mem_cons] at short
    rw [follow_cons]
    cases stepped : place.step segment with
    | ok middle => exact ih short.2
    | error refusal =>
      rintro ⟨⟩
      cases steps_iff.2 stepped with
      | tooLong isFolder down long => exact absurd short.1 (Nat.not_le.2 long)

end Place

section Paths

variable {segments : List String}

def Path.below (base : Path) (segments : List String) : Path :=
  { base with segments := base.segments ++ segments }

/-- The text of a path is not too long for the system, nor is a name in it. -/
structure Path.Fits (path : Path) : Prop where
  whole : path.text.utf8ByteSize < pathLimit
  names : ∀ segment ∈ path.segments, segment.utf8ByteSize ≤ nameLimit

theorem toList_intercalate_slash (segments : List String) :
    (String.intercalate "/" segments).toList = joinWith '/' (segments.map String.toList) := by
  rw [String.toList_intercalate]
  induction segments with
  | nil => rfl
  | cons first rest ih =>
    cases rest with
    | nil => simp [List.intercalate, joinWith]
    | cons next rest =>
      rw [List.map_cons, List.map_cons, joinWith_cons_of_ne_nil _ _ (List.cons_ne_nil _ _),
        ← List.map_cons, ← ih]
      simp [List.intercalate]

theorem mem_joinWith_iff {mark c : Char} (other : c ≠ mark) (pieces : List (List Char)) :
    c ∈ joinWith mark pieces ↔ ∃ piece ∈ pieces, c ∈ piece := by
  induction pieces with
  | nil => simp [joinWith]
  | cons piece rest ih =>
    cases rest with
    | nil => simp [joinWith]
    | cons next rest =>
      rw [joinWith_cons_of_ne_nil _ _ (List.cons_ne_nil _ _), List.mem_append, List.mem_cons, ih,
        List.exists_mem_cons_iff]
      simp [other]

theorem ofText_intercalate (nonempty : segments ≠ [])
    (named : ∀ name ∈ segments, IsEntryName name) :
    Path.ofText (String.intercalate "/" segments) = { absolute := false, segments } := by
  have pieces : cutAt '/' (String.intercalate "/" segments).toList =
      segments.map String.toList := by
    rw [toList_intercalate_slash]
    refine cutAt_joinWith (by simpa using nonempty) fun piece member => ?_
    obtain ⟨name, isName, rfl⟩ := List.mem_map.1 member
    exact (named name isName).noSlash
  have kept : (segments.map String.toList).filter (fun segment =>
      segment ≠ [] ∧ segment ≠ ['.']) = segments.map String.toList := by
    rw [List.filter_eq_self]
    intro piece member
    obtain ⟨name, isName, rfl⟩ := List.mem_map.1 member
    have notEmpty : name.toList ≠ [] := by simpa using (named name isName).ne_empty
    have notDot : name.toList ≠ ['.'] := fun same =>
      (named name isName).ne_dot (String.toList_inj.1 same)
    simp [notEmpty, notDot]
  have relative : (String.intercalate "/" segments).toList.head? ≠ some '/' := by
    -- Such a text would begin with an empty name.
    intro slash
    obtain ⟨rest, text⟩ := List.head?_eq_some_iff.1 slash
    rw [text, cutAt_mark] at pieces
    obtain ⟨name, isName, empty⟩ := List.mem_map.1 (pieces ▸ List.mem_cons_self)
    exact (named name isName).ne_empty (by simpa using empty)
  simp only [Path.ofText, pieces, kept, relative, decide_false, List.map_map]
  congr 1
  simp

theorem join_intercalate (base : Path) (nonempty : segments ≠ [])
    (named : ∀ name ∈ segments, IsEntryName name) :
    base.join (String.intercalate "/" segments) = base.below segments := by
  rw [Path.join, ofText_intercalate nonempty named]
  rfl

theorem null_mem_text_iff (path : Path) :
    '\x00' ∈ path.text.toList ↔ ∃ segment ∈ path.segments, '\x00' ∈ segment.toList := by
  have joined : '\x00' ∈ (String.intercalate "/" path.segments).toList ↔
      ∃ segment ∈ path.segments, '\x00' ∈ segment.toList := by
    rw [toList_intercalate_slash, mem_joinWith_iff (by decide)]
    simp
  rw [← joined, Path.text]
  split
  · simp
  · split
    next empty =>
      have nothing : path.segments = [] := by simpa using empty
      simp [nothing]
    next => rfl

end Paths

namespace Disk

variable {disk : Disk} {base path : Path} {segments : List String}

def at? (disk : Disk) (base : Path) (segments : List String) : Option Entry :=
  match disk.place? base with
  | .ok (some place) => place.entry.at? segments
  | _ => none

def route (disk : Disk) (path : Path) : List String :=
  if path.absolute then path.segments else disk.home ++ path.segments

theorem route_below (disk : Disk) (base : Path) (segments : List String) :
    disk.route (base.below segments) = disk.route base ++ segments := by
  cases absolute : base.absolute <;> simp [route, Path.below, absolute]

theorem short_route (home : ∀ segment ∈ disk.home, segment.utf8ByteSize ≤ nameLimit)
    (fits : path.Fits) : ∀ segment ∈ disk.route path, segment.utf8ByteSize ≤ nameLimit := by
  unfold route
  split
  · exact fits.names
  · exact List.forall_mem_append.2 ⟨home, fits.names⟩

theorem place?_of_null (null : '\x00' ∈ path.text.toList) : disk.place? path = .ok none := by
  have refused : disk.locate path = .error .unusable := by simp [locate, null]
  rw [place?, refused]

theorem locate_eq_follow (usable : '\x00' ∉ path.text.toList)
    (short : path.text.utf8ByteSize < pathLimit) :
    disk.locate path = (Place.mk [] disk.root).follow (disk.route path) := by
  simp [locate, usable, Nat.not_le.2 short, route]

theorem place?_below (named : ∀ name ∈ segments, IsEntryName name) (fits : base.Fits)
    (home : ∀ segment ∈ disk.home, segment.utf8ByteSize ≤ nameLimit)
    (fitsBelow : (base.below segments).Fits) :
    (disk.place? (base.below segments)).map (Option.map Place.entry) =
      .ok (disk.at? base segments) := by
  have nulls : '\x00' ∈ (base.below segments).text.toList ↔ '\x00' ∈ base.text.toList := by
    have none : ¬ ∃ segment ∈ segments, '\x00' ∈ segment.toList :=
      fun ⟨segment, member, null⟩ => (named segment member).noNull null
    simp only [null_mem_text_iff, Path.below, List.mem_append, or_and_right, exists_or, none,
      or_false]
  by_cases null : '\x00' ∈ base.text.toList
  · rw [at?, place?_of_null null, place?_of_null (nulls.2 null)]
    rfl
  rw [at?, place?, place?, locate_eq_follow null fits.whole,
    locate_eq_follow (mt nulls.1 null) fitsBelow.whole,
    route_below, Place.follow_append]
  cases reached : (Place.mk [] disk.root).follow (disk.route base) with
  | error refusal =>
    have short : refusal ≠ .tooLong := by
      rintro rfl
      exact Place.follow_ne_tooLong (short_route home fits) reached
    cases refusal with
    | tooLong => exact absurd rfl short
    | _ => rfl
  | ok place =>
    cases known : place.entry.at? segments with
    | some found =>
      obtain ⟨last, followed, rfl⟩ := Place.exists_follow_of_at? named known
      simp [followed, known, Except.map, Bind.bind, Except.bind]
    | none =>
      obtain ⟨refusal, refused, short⟩ := Place.exists_refusal_of_at? named known
      cases refusal with
      | tooLong => exact absurd rfl short
      | _ => simp [refused, known, Except.map, Bind.bind, Except.bind]

theorem exists_place? (fits : base.Fits)
    (home : ∀ segment ∈ disk.home, segment.utf8ByteSize ≤ nameLimit) :
    ∃ reached, disk.place? base = .ok reached := by
  have here : base.below [] = base := by simp [Path.below]
  have reached := @place?_below disk base [] (by simp) fits home (here.symm ▸ fits)
  rw [here] at reached
  cases found : disk.place? base with
  | ok place? => exact ⟨place?, rfl⟩
  | error refusal =>
    rw [found] at reached
    cases reached

theorem locate_of_place? {place : Place} (found : disk.place? path = .ok (some place)) :
    disk.locate path = .ok place := by
  unfold place? at found
  split at found
  next other located =>
    cases found
    exact located
  next => cases found
  next => cases found

theorem follow_of_locate {place : Place} (located : disk.locate path = .ok place) :
    (Place.mk [] disk.root).follow (disk.route path) = .ok place := by
  unfold locate at located
  split at located
  next => cases located
  split at located
  next => cases located
  exact located

theorem proper_of_place? {place : Place} (proper : disk.root.Proper)
    (found : disk.place? path = .ok (some place)) : place.entry.Proper := by
  have within := Place.Within.root.follow (follow_of_locate (locate_of_place? found))
  exact (proper.of_at? within.at?_names).1

theorem read_below {content : List UInt8} (named : ∀ name ∈ segments, IsEntryName name)
    (fits : base.Fits) (home : ∀ segment ∈ disk.home, segment.utf8ByteSize ≤ nameLimit)
    (fitsBelow : (base.below segments).Fits)
    (isFile : disk.at? base segments = some (.file content)) :
    disk.read (base.below segments) = .ok content := by
  have reached := place?_below named fits home fitsBelow
  rw [isFile] at reached
  cases found : disk.place? (base.below segments) with
  | error refusal =>
    rw [found] at reached
    cases reached
  | ok place? =>
    rw [found] at reached
    obtain ⟨place, rfl, isFile⟩ := Option.map_eq_some_iff.1 (Except.ok.inj reached)
    rw [read, locate_of_place? found]
    simp [Bind.bind, Except.bind, isFile]

theorem isEntryName_of_at? {found : Entry} (proper : disk.root.Proper)
    (known : disk.at? base segments = some found) : ∀ name ∈ segments, IsEntryName name := by
  unfold at? at known
  split at known
  next place reached => exact ((proper_of_place? proper reached).of_at? known).2
  next => cases known

theorem mem_contents_of_at? {place : Place} (proper : disk.root.Proper)
    (reached : disk.place? base = .ok (some place)) (known : (disk.at? base segments).isSome) :
    segments = [] ∨ segments ∈ place.entry.contents := by
  rw [at?, reached] at known
  rw [(proper_of_place? proper reached).mem_contents_iff, ← Option.isSome_iff_exists]
  exact (Decidable.em (segments = [])).imp_right fun nonempty => ⟨nonempty, known⟩

end Disk

end Mustache
