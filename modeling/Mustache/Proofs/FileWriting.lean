import Mustache.Proofs.FolderContents

set_option autoImplicit false

namespace Mustache

namespace Entry

variable {entry root found : Entry} {name : String} {first second names other : List String}

theorem isFolder_of_at? (below : second ≠ []) (known : (entry.at? (first ++ second)).isSome) :
    ∃ entries, entry.at? first = some (.folder entries) := by
  rw [at?_append] at known
  obtain ⟨name, rest, rfl⟩ := List.exists_cons_of_ne_nil below
  cases here : entry.at? first with
  | none => simp [here] at known
  | some middle =>
    cases middle with
    | file content => simp [here, at?, child?] at known
    | folder entries => exact ⟨entries, rfl⟩

theorem lookup_putChild_self {entries : List (String × Entry)} :
    (putChild name entry entries).lookup name = some entry := by
  induction entries with
  | nil => simp [putChild]
  | cons item rest ih => grind [putChild]

theorem lookup_putChild_other {entries : List (String × Entry)} {last : String}
    (differs : last ≠ name) : (putChild name entry entries).lookup last = entries.lookup last := by
  induction entries with
  | nil => grind [putChild]
  | cons item rest ih => grind [putChild]

theorem exists_insert_cons (entry : Entry) (name : String) (rest : List String) (root : Entry) :
    ∃ entries inside, entry.insert (name :: rest) root = .folder entries ∧
      entries.lookup name = some (entry.insert rest inside) ∧
      (∀ last, last ≠ name → entries.lookup last = root.child? last) ∧
      (root.child? name = some inside ∨
        root.child? name = none ∧ inside = .folder []) := by
  cases root with
  | file content =>
    refine ⟨[(name, entry.insert rest (.folder []))], .folder [], rfl, ?_, ?_, .inr ⟨rfl, rfl⟩⟩
    · simp
    · intro last differs
      have other : (last == name) = false := beq_false_of_ne differs
      simp [child?, List.lookup_cons, other]
  | folder entries =>
    refine ⟨_, _, rfl, lookup_putChild_self, fun last => lookup_putChild_other, ?_⟩
    cases known : entries.lookup name with
    | none => exact .inr ⟨known, rfl⟩
    | some child => exact .inl known

theorem at?_insert_below (entry : Entry) (names rest : List String) (root : Entry) :
    (entry.insert names root).at? (names ++ rest) = entry.at? rest := by
  induction names generalizing root with
  | nil =>
    rw [List.nil_append]
    rfl
  | cons name names ih =>
    obtain ⟨entries, inside, inserted, known, -⟩ := exists_insert_cons entry name names root
    rw [inserted, List.cons_append, at?, child?, known]
    exact ih inside

theorem at?_insert_above (entry : Entry) (first : List String) {second : List String}
    (below : second ≠ []) (root : Entry) :
    ∃ entries, (entry.insert (first ++ second) root).at? first = some (.folder entries) := by
  have here := at?_insert_below entry (first ++ second) [] root
  rw [List.append_nil] at here
  exact isFolder_of_at? below (by rw [here]; rfl)

theorem at?_insert_beside (entry : Entry) (notBelow : ¬ names <+: other)
    (notAbove : ¬ other <+: names) (root : Entry) :
    (entry.insert names root).at? other = root.at? other := by
  induction names generalizing other root with
  | nil => exact absurd List.nil_prefix notBelow
  | cons name names ih =>
    obtain ⟨last, other, rfl⟩ := List.exists_cons_of_ne_nil
      (show other ≠ [] from fun empty => notAbove (empty ▸ List.nil_prefix))
    obtain ⟨entries, inside, inserted, known, rest, was⟩ :=
      exists_insert_cons entry name names root
    rw [inserted, at?, at?, child?]
    by_cases same : last = name
    · subst same
      rw [List.cons_prefix_cons] at notBelow notAbove
      rw [known]
      have onward := ih (by simpa using notBelow) (by simpa using notAbove) inside
      rcases was with was | ⟨was, rfl⟩
      · rw [was]
        exact onward
      · rw [was]
        refine onward.trans ?_
        -- Nothing stands in an empty folder.
        cases other with
        | nil => simp at notAbove
        | cons next other => rfl
    · rw [rest last same]

end Entry

structure Entry.Grown (root root' : Entry) : Prop where
  folder : ∀ path entries, root.at? path = some (.folder entries) →
    ∃ entries', root'.at? path = some (.folder entries')
  known : ∀ path, (root.at? path).isSome → (root'.at? path).isSome

namespace Place

variable {root root' : Entry} {place place' next : Place} {segment : String}
  {segments : List String}

theorem Within.isFolder_grown {entries : List (String × Entry)} (grown : root.Grown root')
    (within : place.Within root) (within' : place'.Within root')
    (same : place'.names = place.names) (isFolder : place.entry = .folder entries) :
    ∃ entries', place'.entry = .folder entries' := by
  have here := within.at?_names
  rw [isFolder] at here
  obtain ⟨entries', there⟩ := grown.folder _ _ here
  rw [← same, within'.at?_names] at there
  exact ⟨entries', Option.some.inj there⟩

theorem Within.step_grown (grown : root.Grown root') (within : place.Within root)
    (within' : place'.Within root') (same : place'.names = place.names)
    (moved : place.step segment = .ok next) :
    ∃ next', place'.step segment = .ok next' ∧ next'.names = next.names := by
  have folders : place'.above.map Prod.fst = place.above.map Prod.fst := List.reverse_inj.1 same
  cases steps_iff.2 moved with
  | top isFolder up first =>
    obtain ⟨entries', isFolder'⟩ := within.isFolder_grown grown within' same isFolder
    have first' : place'.above = [] := by simpa [first] using folders
    exact ⟨place', steps_iff.1 (.top isFolder' up first'), same⟩
  | leave isFolder up left =>
    obtain ⟨entries', isFolder'⟩ := within.isFolder_grown grown within' same isFolder
    rw [left] at folders
    obtain ⟨item', above', left', -, folders⟩ := List.map_eq_cons_iff.1 folders
    exact ⟨_, steps_iff.1 (.leave isFolder' up left'), congrArg List.reverse folders⟩
  | @enter entries child isFolder down short known =>
    obtain ⟨entries', isFolder'⟩ := within.isFolder_grown grown within' same isFolder
    have here : (root.at? (place.names ++ [segment])).isSome := by
      rw [Entry.at?_append, within.at?_names, Option.bind_some, Entry.at?_singleton, isFolder,
        Entry.child?, known]
      rfl
    have there := grown.known _ here
    rw [← same, Entry.at?_append, within'.at?_names, Option.bind_some, Entry.at?_singleton,
      isFolder'] at there
    obtain ⟨child', known'⟩ := Option.isSome_iff_exists.1 there
    refine ⟨_, steps_iff.1 (.enter isFolder' down short known'), ?_⟩
    rw [names_enter, names_enter, same]

theorem Within.follow_grown (grown : root.Grown root') (within : place.Within root)
    (within' : place'.Within root') (same : place'.names = place.names)
    (moved : place.follow segments = .ok next) :
    ∃ next', place'.follow segments = .ok next' ∧ next'.names = next.names := by
  induction segments generalizing place place' with
  | nil =>
    cases moved
    exact ⟨place', rfl, same⟩
  | cons segment segments ih =>
    rw [follow_cons] at moved
    obtain ⟨middle, stepped, onward⟩ := exists_ok_of_bind moved
    obtain ⟨middle', stepped', same'⟩ := within.step_grown grown within' same stepped
    rw [follow_cons, stepped']
    exact ih (within.step stepped) (within'.step stepped') same' onward

end Place

/-- Names at which a tree takes a file: they lead through folders, and not to a folder. -/
structure Entry.TakesFile (root : Entry) (names : List String) : Prop where
  notFolder : ∀ entries, root.at? names ≠ some (.folder entries)
  inside : ∀ first second, names = first ++ second → second ≠ [] →
    ∃ entries, root.at? first = some (.folder entries)

namespace Entry.TakesFile

variable {root : Entry} {names other : List String} {content found : List UInt8}

theorem at?_below (takes : root.TakesFile names) {rest : List String} (below : rest ≠ []) :
    root.at? (names ++ rest) = none := by
  cases here : root.at? (names ++ rest) with
  | none => rfl
  | some entry =>
    obtain ⟨entries, isFolder⟩ := isFolder_of_at? below (by rw [here]; rfl)
    exact absurd isFolder (takes.notFolder entries)

theorem cases_insert (takes : root.TakesFile names) (content : List UInt8)
    (differs : other ≠ names) :
    (root.at? other = none ∧ ((Entry.file content).insert names root).at? other = none) ∨
      (∃ entries entries', root.at? other = some (.folder entries) ∧
        ((Entry.file content).insert names root).at? other = some (.folder entries')) ∨
      ((Entry.file content).insert names root).at? other = root.at? other := by
  by_cases below : names <+: other
  · obtain ⟨rest, rfl⟩ := below
    have nonempty : rest ≠ [] := by simpa using differs
    refine .inl ⟨takes.at?_below nonempty, ?_⟩
    rw [at?_insert_below]
    obtain ⟨name, rest, rfl⟩ := List.exists_cons_of_ne_nil nonempty
    rfl
  by_cases above : other <+: names
  · obtain ⟨rest, rfl⟩ := above
    have nonempty : rest ≠ [] := by simpa using differs.symm
    obtain ⟨entries, isFolder⟩ := takes.inside other rest rfl nonempty
    obtain ⟨entries', isFolder'⟩ := at?_insert_above (.file content) other nonempty root
    exact .inr (.inl ⟨entries, entries', isFolder, isFolder'⟩)
  · exact .inr (.inr (at?_insert_beside (.file content) below above root))

theorem at?_insert_self (content : List UInt8) (names : List String) (root : Entry) :
    ((Entry.file content).insert names root).at? names = some (.file content) := by
  have here := at?_insert_below (.file content) names [] root
  rwa [List.append_nil] at here

theorem grown (takes : root.TakesFile names) (content : List UInt8) :
    root.Grown ((Entry.file content).insert names root) := by
  refine ⟨fun path entries isFolder => ?_, fun path known => ?_⟩
  · have differs : path ≠ names := by
      rintro rfl
      exact takes.notFolder entries isFolder
    rcases takes.cases_insert content differs with ⟨none, -⟩ | ⟨_, entries', -, after⟩ | same
    · rw [none] at isFolder
      cases isFolder
    · exact ⟨entries', after⟩
    · exact ⟨entries, same.trans isFolder⟩
  · by_cases same : path = names
    · rw [same, at?_insert_self]
      rfl
    rcases takes.cases_insert content same with ⟨none, -⟩ | ⟨_, _, -, after⟩ | same
    · rw [none] at known
      cases known
    · rw [after]
      rfl
    · rwa [same]

theorem file_at?_insert (takes : root.TakesFile names) (differs : other ≠ names) :
    ((Entry.file content).insert names root).at? other = some (.file found) ↔
      root.at? other = some (.file found) := by
  rcases takes.cases_insert content differs with ⟨before, after⟩ | ⟨_, _, before, after⟩ | same
  · rw [before, after]
  · rw [before, after]
    simp
  · rw [same]

end Entry.TakesFile

namespace Disk

variable {disk after : Disk} {path : Path} {names : List String} {content : List UInt8}

/-- Where a write puts a file: in the place of one that is there, or into a folder that lacks it. -/
inductive Puts (disk : Disk) (path : Path) : List String → Prop
  | again {place : Place} {content : List UInt8}
      (reached : (Place.mk [] disk.root).follow (disk.route path) = .ok place)
      (isFile : place.entry = .file content) : Puts disk path place.names
  | anew {front : List String} {name : String} {folder : Place} {entries : List (String × Entry)}
      (route : disk.route path = front ++ [name])
      (reached : (Place.mk [] disk.root).follow front = .ok folder)
      (isFolder : folder.entry = .folder entries) (absent : entries.lookup name = none)
      (down : name ≠ "..") (short : name.utf8ByteSize ≤ nameLimit) :
      Puts disk path (folder.names ++ [name])

theorem route_eq_concat (nonempty : path.segments ≠ []) :
    disk.route path = disk.route path.parent ++ [path.name] := by
  have last : path.segments = path.parent.segments ++ [path.name] := by
    rw [Path.name, List.getLast?_eq_getLast_of_ne_nil nonempty]
    exact (List.dropLast_append_getLast nonempty).symm
  rw [route, route, last]
  cases absolute : path.absolute <;> simp [Path.parent, absolute]

theorem parent_of_empty (empty : path.segments = []) : path.parent = path := by
  obtain ⟨absolute, segments⟩ := path
  obtain rfl : segments = [] := empty
  rfl

theorem puts_of_missing {folder : Place} (usable : '\x00' ∉ path.text.toList)
    (short : path.text.utf8ByteSize < pathLimit) (missing : disk.locate path = .error .missing)
    (parent : disk.locate path.parent = .ok folder) :
    disk.Puts path (folder.names ++ [path.name]) := by
  have nonempty : path.segments ≠ [] := by
    intro empty
    rw [parent_of_empty empty, missing] at parent
    cases parent
  have route : disk.route path = _ := route_eq_concat nonempty
  have reached := follow_of_locate parent
  rw [locate_eq_follow usable short, route, Place.follow_append, reached] at missing
  change folder.follow [path.name] = _ at missing
  rw [Place.follow_cons] at missing
  cases stepped : folder.step path.name with
  | ok next =>
    rw [stepped] at missing
    cases missing
  | error refusal =>
    rw [stepped] at missing
    cases missing
    cases Place.steps_iff.2 stepped with
    | missing isFolder down short absent => exact .anew route reached isFolder absent down short

theorem puts_of_target (targeted : disk.target path = .ok names) :
    '\x00' ∉ path.text.toList ∧ path.text.utf8ByteSize < pathLimit ∧ disk.Puts path names := by
  have usable : '\x00' ∉ path.text.toList := by
    intro null
    simp [target, locate, null] at targeted
  have short : path.text.utf8ByteSize < pathLimit := by
    by_contra long
    simp [target, locate, usable, Nat.not_lt.1 long] at targeted
  refine ⟨usable, short, ?_⟩
  unfold target at targeted
  split at targeted
  next => cases targeted
  next place notFolder here =>
    cases targeted
    obtain ⟨above, entry⟩ := place
    cases entry with
    | folder entries => exact absurd rfl (notFolder above entries)
    | file content => exact .again (follow_of_locate here) rfl
  next missing =>
    obtain ⟨folder, parent, named⟩ := exists_ok_of_bind targeted
    cases named
    exact puts_of_missing usable short missing parent
  next => cases targeted

theorem Puts.takesFile (puts : disk.Puts path names) : disk.root.TakesFile names := by
  cases puts with
  | @again place content reached isFile =>
    have here := (Place.Within.root.follow reached).at?_names
    rw [isFile] at here
    refine ⟨fun entries isFolder => ?_, fun first second same below => ?_⟩
    · rw [here] at isFolder
      cases isFolder
    · rw [same] at here
      exact Entry.isFolder_of_at? below (by rw [here]; rfl)
  | @anew front name folder entries route reached isFolder absent down short =>
    have here := (Place.Within.root.follow reached).at?_names
    rw [isFolder] at here
    refine ⟨fun entries isFolder => ?_, fun first second same below => ?_⟩
    · rw [Entry.at?_append, here, Option.bind_some, Entry.at?_singleton, Entry.child?, absent]
        at isFolder
      cases isFolder
    · rw [← List.dropLast_append_getLast below, ← List.append_assoc] at same
      obtain ⟨same, -⟩ := List.append_inj' same rfl
      generalize second.dropLast = middle at same
      rw [same] at here
      by_cases whole : middle = []
      · rw [whole, List.append_nil] at here
        exact ⟨entries, here⟩
      · exact Entry.isFolder_of_at? whole (by rw [here]; rfl)

theorem Puts.follow_insert (puts : disk.Puts path names) (content : List UInt8) :
    ∃ place, (Place.mk [] ((Entry.file content).insert names disk.root)).follow (disk.route path) =
      .ok place ∧ place.entry = .file content := by
  have grown := puts.takesFile.grown content
  have there := Entry.TakesFile.at?_insert_self content names disk.root
  cases puts with
  | @again place old reached isFile =>
    obtain ⟨place', reached', same⟩ :=
      Place.Within.follow_grown grown .root .root rfl reached
    have here := (Place.Within.root.follow reached').at?_names
    rw [same, there] at here
    exact ⟨place', reached', (Option.some.inj here).symm⟩
  | @anew front name folder entries route reached isFolder absent down short =>
    obtain ⟨folder', reached', same⟩ :=
      Place.Within.follow_grown grown .root .root rfl reached
    have here := (Place.Within.root.follow reached').at?_names
    rw [same] at here
    rw [Entry.at?_append, here, Option.bind_some, Entry.at?_singleton] at there
    refine ⟨folder'.enter name (.file content), ?_, rfl⟩
    rw [route, Place.follow_append, reached']
    change folder'.follow [name] = _
    rw [Place.follow_cons, Place.step_of_child? down short there]
    rfl

/-- What a write does: the content is read from the path, and every other file is as it was. -/
structure Rewritten (before after : Disk) (path : Path) (content : List UInt8) : Prop where
  read : after.read path = .ok content
  others : ∃ names, after.root.at? names = some (.file content) ∧
    ∀ other, other ≠ names → ∀ found,
      after.root.at? other = some (.file found) ↔ before.root.at? other = some (.file found)

theorem rewritten_of_write (wrote : disk.write path content = .ok after) :
    disk.Rewritten after path content := by
  obtain ⟨names, targeted, put⟩ := exists_ok_of_bind wrote
  cases put
  obtain ⟨usable, short, puts⟩ := puts_of_target targeted
  refine ⟨?_, names, Entry.TakesFile.at?_insert_self _ _ _, fun other differs found =>
    puts.takesFile.file_at?_insert differs⟩
  obtain ⟨place, reached, isFile⟩ := puts.follow_insert content
  have located :
      Disk.locate { disk with root := (Entry.file content).insert names disk.root } path =
        .ok place := (locate_eq_follow usable short).trans reached
  rw [read, located]
  simp [Bind.bind, Except.bind, isFile]

end Disk

end Mustache
