import Mustache.Json
import Mustache.Proofs.Data
import Mustache.Proofs.DigitRuns

set_option autoImplicit false

namespace Mustache

namespace Value

theorem entriesData_putEntry {key value : Value} {entries : List (Value × Value)}
    (data : entriesData entries = true) (isData : value.isData = true) :
    entriesData (putEntry key value entries) = true := by
  induction entries with
  | nil => simpa [putEntry, entriesData] using isData
  | cons entry rest ih =>
    rw [entriesData, Bool.and_eq_true] at data
    unfold putEntry
    split
    · exact Bool.and_eq_true_iff.2 ⟨isData, data.2⟩
    · exact Bool.and_eq_true_iff.2 ⟨data.1, ih data.2⟩

theorem isData_mapOf {entries : List (Value × Value)} (data : entriesData entries = true) :
    (mapOf entries).isData = true := by
  have put (done : List (Value × Value)) (doneData : entriesData done = true) :
      entriesData (entries.foldl (fun done entry => putEntry entry.1 entry.2 done) done) =
        true := by
    induction entries generalizing done with
    | nil => exact doneData
    | cons entry rest ih =>
      rw [entriesData, Bool.and_eq_true] at data
      exact ih data.2 _ (entriesData_putEntry doneData data.1)
  exact put [] rfl

end Value

namespace Json

def Leaves {α : Type} (s : List Char) (outcome : Option (α × List Char)) : Prop :=
  ∀ found, outcome = some found → found.2 <:+ s

/-- Reading that gives a good value and goes on in the text, or fails; of a number only if the text
has one that is too long. -/
structure Reads {α : Type} (good : α → Prop) (s : List Char) (outcome : Reading (α × List Char)) :
    Prop where
  ok : ∀ found, outcome = .ok found → good found.1 ∧ found.2 <:+ s
  long : outcome = .error .tooManyDigits → ¬ Readable s

namespace Reads

variable {α β : Type} {good : α → Prop} {good' : β → Prop} {s rest : List Char}

theorem done {value : α} (isGood : good value) (suffix : rest <:+ s) :
    Reads good s (.ok (value, rest)) :=
  ⟨fun _ same => Except.ok.inj same ▸ ⟨isGood, suffix⟩, nofun⟩

theorem notJson : Reads good s (.error .notJson) :=
  ⟨nofun, nofun⟩

theorem behind {outcome : Reading (α × List Char)} (reads : Reads good rest outcome)
    (suffix : rest <:+ s) : Reads good s outcome :=
  ⟨fun found same => (reads.ok found same).imp_right (·.trans suffix),
    fun failed readable => reads.long failed (readable.part suffix.isInfix)⟩

theorem bind {outcome : Reading (α × List Char)} {next : α × List Char → Reading (β × List Char)}
    (reads : Reads good s outcome)
    (onward : ∀ value rest, good value → rest <:+ s → Reads good' s (next (value, rest))) :
    Reads good' s (outcome >>= next) := by
  cases outcome with
  | error fault => exact ⟨nofun, fun failed => reads.long (congrArg _ (Except.error.inj failed))⟩
  | ok found =>
    obtain ⟨isGood, suffix⟩ := reads.ok found rfl
    exact onward found.1 found.2 isGood suffix

theorem ofOption {outcome : Option (α × List Char)} (leaves : Leaves s outcome) :
    Reads (fun _ => True) s (orNotJson outcome) := by
  cases outcome with
  | none => exact .notJson
  | some found => exact .done trivial (leaves found rfl)

end Reads

section Texts

theorem leaves_readUnit? (s : List Char) : Leaves s (readUnit? s) := by
  unfold readUnit?
  split
  · intro found read
    simp only [Option.bind_eq_bind, Option.bind_eq_some_iff, Option.some.injEq] at read
    obtain ⟨_, _, _, _, _, _, _, _, rfl⟩ := read
    exact ⟨[_, _, _, _], rfl⟩
  · exact nofun

theorem leaves_readEscapedChar? (s : List Char) : Leaves s (readEscapedChar? s) := by
  intro found read
  obtain ⟨⟨unit, rest⟩, first, read⟩ := Option.bind_eq_some_iff.1 read
  have suffix : rest <:+ s := leaves_readUnit? s _ first
  have stays : ∀ c, some (c, rest) = some found → found.2 <:+ s := by
    rintro c ⟨⟩
    exact suffix
  dsimp only at read
  split at read
  · split at read
    next after =>
      split at read
      next low last second =>
        split at read
        · obtain rfl := Option.some.inj read
          have behind : last <:+ after := leaves_readUnit? after _ second
          exact (behind.trans (List.suffix_append ['\\', 'u'] after)).trans suffix
        · exact stays _ read
      · exact stays _ read
    · exact stays _ read
  · exact stays _ read

theorem leaves_readString? (rounds : Nat) (done s : List Char) :
    Leaves s (readString? rounds done s) := by
  fun_induction readString? rounds done s with
  | case1 => exact nofun
  | case2 => exact nofun
  | case3 rounds done rest =>
    rintro _ ⟨⟩
    exact List.suffix_cons _ _
  | case4 rounds done rest ih =>
    intro found read
    obtain ⟨⟨c, after⟩, escaped, read⟩ := Option.bind_eq_some_iff.1 read
    have behind : after <:+ rest := leaves_readEscapedChar? rest _ escaped
    exact ((ih c after found read).trans behind).trans (List.suffix_append ['\\', 'u'] rest)
  | case5 rounds done e rest _ ih =>
    intro found read
    obtain ⟨c, -, read⟩ := Option.bind_eq_some_iff.1 read
    exact (ih c found read).trans (List.suffix_append ['\\', e] rest)
  | case6 => exact nofun
  | case7 rounds done c rest _ _ _ _ ih =>
    exact fun found read => (ih found read).trans (List.suffix_cons _ _)

end Texts

section Numbers

variable {s rest : List Char} {negative : Bool} {numeral : Numeral}

theorem isSome_digitValue? {c : Char} (digit : isDigit c = true) :
    (digitValue? c).isSome = true := by
  have bounds : '0'.toNat ≤ c.toNat ∧ c.toNat ≤ '9'.toNat := by
    simpa [isDigit, Char.le_def, UInt32.le_iff_toNat_le] using digit
  have inFirst : (0x30 ≤ c.toNat && c.toNat ≤ 0x30 + 9) = true := by
    simpa using bounds
  simp [digitValue?, digitZeros, inFirst]

theorem suffix_readFraction (s : List Char) : (readFraction s).2 <:+ s := by
  unfold readFraction
  split
  next rest =>
    dsimp only
    split
    · exact List.suffix_rfl
    · exact (List.dropWhile_suffix _).trans (List.suffix_cons _ _)
  next => exact List.suffix_rfl

theorem suffix_readExponent (s : List Char) : (readExponent s).2 <:+ s := by
  unfold readExponent
  split
  next e rest =>
    have behind (negative : Bool) {unsigned : List Char} (suffix : unsigned <:+ rest) :
        (if (unsigned.takeWhile isDigit).isEmpty then (none, e :: rest)
          else
            let size : Int := natOfDigits (unsigned.takeWhile isDigit)
            (some (if negative then -size else size), unsigned.dropWhile isDigit)).2 <:+
          e :: rest := by
      split
      · exact List.suffix_rfl
      · exact ((List.dropWhile_suffix _).trans suffix).trans (List.suffix_cons _ _)
    split
    · dsimp only
      split
      · exact behind true (List.suffix_cons _ _)
      · exact behind false (List.suffix_cons _ _)
      · exact behind false List.suffix_rfl
    · exact List.suffix_rfl
  next => exact List.suffix_rfl

theorem whole_of_readNumeral? (read : readNumeral? negative s = some (numeral, rest)) :
    rest <:+ s ∧ numeral.whole <+: s ∧ ∀ c ∈ numeral.whole, isDigit c = true := by
  have begins (whole : List Char) (front : whole <+: s) (digits : ∀ c ∈ whole, isDigit c = true)
      (read : (if whole.isEmpty then none
        else
          let fraction := readFraction (s.drop whole.length)
          let exponent := readExponent fraction.2
          some ((⟨negative, whole, fraction.1, exponent.1⟩ : Numeral), exponent.2)) =
        some (numeral, rest)) :
      rest <:+ s ∧ numeral.whole <+: s ∧ ∀ c ∈ numeral.whole, isDigit c = true := by
    split at read
    · cases read
    · cases read
      exact ⟨((suffix_readExponent _).trans (suffix_readFraction _)).trans (List.drop_suffix _ _),
        front, digits⟩
  unfold readNumeral? at read
  split at read
  · exact begins ['0'] ⟨_, rfl⟩ (by simp [isDigit]) read
  · exact begins _ (List.takeWhile_prefix _) (List.all_eq_true.1 List.all_takeWhile) read

theorem reads_readNumber (negative : Bool) (s : List Char) :
    Reads (fun value => value.isData = true) s (readNumber negative s) := by
  unfold readNumber
  cases read : readNumeral? negative s with
  | none => exact .notJson
  | some found =>
    obtain ⟨numeral, rest⟩ := found
    obtain ⟨suffix, front, digits⟩ := whole_of_readNumeral? read
    change Reads _ s (numeral.toValue >>= fun value => .ok (value, rest))
    unfold Numeral.toValue
    split
    · split
      next long =>
        refine ⟨nofun, fun _ readable => ?_⟩
        have short := readable _ front.isInfix fun c member => isSome_digitValue? (digits c member)
        omega
      next => exact .done rfl suffix
    · exact .done rfl suffix

theorem reads_readAtom (s : List Char) :
    Reads (fun value => value.isData = true) s (readAtom s) := by
  unfold readAtom
  split
  next found isWord =>
    obtain ⟨⟨word, value⟩, member, isFound⟩ := List.exists_of_findSome?_eq_some isWord
    obtain ⟨rest, dropped, rfl⟩ := Option.map_eq_some_iff.1 isFound
    have isData : ∀ entry ∈ words, entry.2.isData = true := by decide
    refine .done (isData _ member) ?_
    unfold dropText? at dropped
    split at dropped
    · cases dropped
      exact List.drop_suffix _ _
    · cases dropped
  next =>
    split
    · exact (reads_readNumber true _).behind (List.suffix_cons _ _)
    · exact reads_readNumber false s

end Numbers

section Values

theorem suffix_skipSpace (s : List Char) : skipSpace s <:+ s :=
  List.dropWhile_suffix _

theorem suffix_of_skipSpace {c : Char} {s rest after : List Char}
    (space : skipSpace rest = c :: after) (suffix : rest <:+ s) : after <:+ s :=
  ((List.suffix_cons c after).trans (space ▸ suffix_skipSpace rest)).trans suffix

theorem reads_readText (rounds : Nat) (s : List Char) :
    Reads (fun _ => True) s (readText rounds s) :=
  .ofOption (leaves_readString? rounds [] s)

mutual

theorem reads_readValue : (rounds : Nat) → (s : List Char) →
    Reads (fun value => value.isData = true) s (readValue rounds s)
  | 0, _ => .notJson
  | rounds + 1, s => by
      unfold readValue
      split
      next rest =>
        refine ((reads_readText rounds rest).behind (List.suffix_cons _ _)).bind
          fun text after _ suffix => ?_
        exact .done rfl suffix
      next rest =>
        split
        next after space => exact .done rfl (suffix_of_skipSpace space (List.suffix_cons _ _))
        next =>
          have items := (reads_readItems rounds (skipSpace rest)).behind (suffix_skipSpace rest)
          refine (items.behind (List.suffix_cons _ _)).bind fun items after data suffix => ?_
          exact .done data suffix
      next rest =>
        split
        next after space => exact .done rfl (suffix_of_skipSpace space (List.suffix_cons _ _))
        next =>
          have members := (reads_readMembers rounds (skipSpace rest)).behind (suffix_skipSpace rest)
          refine (members.behind (List.suffix_cons _ _)).bind fun members after data suffix => ?_
          exact .done (Value.isData_mapOf data) suffix
      next => exact reads_readAtom s

theorem reads_readItems : (rounds : Nat) → (s : List Char) →
    Reads (fun items => Value.allData items = true) s (readItems rounds s)
  | 0, _ => .notJson
  | rounds + 1, s => by
      unfold readItems
      refine (reads_readValue rounds s).bind fun item rest isData suffix => ?_
      dsimp only
      split
      next after space =>
        have items := (reads_readItems rounds (skipSpace after)).behind (suffix_skipSpace after)
        refine (items.behind (suffix_of_skipSpace space suffix)).bind
          fun items last data suffix => ?_
        exact .done (Bool.and_eq_true_iff.2 ⟨isData, data⟩) suffix
      next after space =>
        exact .done (by simp [Value.allData, isData]) (suffix_of_skipSpace space suffix)
      next => exact .notJson

theorem reads_readMembers : (rounds : Nat) → (s : List Char) →
    Reads (fun members => Value.entriesData members = true) s (readMembers rounds s)
  | 0, _ => .notJson
  | rounds + 1, s => by
      unfold readMembers
      split
      next rest =>
        refine ((reads_readText rounds rest).behind (List.suffix_cons _ _)).bind
          fun name rest _ suffix => ?_
        dsimp only
        split
        next after space =>
          have value := (reads_readValue rounds (skipSpace after)).behind (suffix_skipSpace after)
          refine (value.behind (suffix_of_skipSpace space suffix)).bind
            fun value rest isData suffix => ?_
          dsimp only
          split
          next after space =>
            have members :=
              (reads_readMembers rounds (skipSpace after)).behind (suffix_skipSpace after)
            refine (members.behind (suffix_of_skipSpace space suffix)).bind
              fun members last data suffix => ?_
            exact .done (Bool.and_eq_true_iff.2 ⟨isData, data⟩) suffix
          next after space =>
            exact .done (by simp [Value.entriesData, isData]) (suffix_of_skipSpace space suffix)
          next => exact .notJson
        next => exact .notJson
      next => exact .notJson

end

theorem read_text (text : String) :
    (∀ value, read text = .ok value → value.isData = true) ∧
      (read text = .error .tooManyDigits → ¬ Readable text.toList) := by
  have reads := (reads_readValue (2 * text.toList.length + 2) (skipSpace text.toList)).behind
    (suffix_skipSpace text.toList)
  have whole : read text = (readValue (2 * text.toList.length + 2) (skipSpace text.toList) >>=
      fun found =>
        if !(skipSpace found.2).isEmpty then .error .notJson
        else if hasLoneHalf false text.toList then .error .loneHalf
        else pure found.1) := rfl
  rw [whole]
  cases found : readValue (2 * text.toList.length + 2) (skipSpace text.toList) with
  | error fault =>
    refine ⟨nofun, fun failed => reads.long ?_⟩
    rw [found, Except.error.inj failed]
  | ok found' =>
    obtain ⟨isData, -⟩ := reads.ok found' found
    simp only [Bind.bind, Except.bind]
    split
    · exact ⟨nofun, nofun⟩
    · split
      · exact ⟨nofun, nofun⟩
      · exact ⟨fun value same => Except.ok.inj same ▸ isData, nofun⟩

end Values

end Json

end Mustache
