import Mustache.Proofs.Histories

set_option autoImplicit false

namespace Mustache

section Parsing

variable {pair : Delimiters} {source : String} {nodes : List Node}

theorem squash_ne_nil {tokens : List Token} (nonempty : tokens ≠ []) : squash tokens ≠ [] := by
  obtain ⟨token, rest, rfl⟩ := List.exists_cons_of_ne_nil nonempty
  change squash.squashFrom token rest ≠ []
  induction rest generalizing token with
  | nil => simp [squash.squashFrom]
  | cons next rest ih =>
    unfold squash.squashFrom
    split
    · exact ih _ (by simp)
    · simp

theorem eq_nil_of_stripLine {line : List Token} (stripped : stripLine line = []) : line = [] := by
  -- A line that stands alone keeps its tags.
  have tags := filter_isTag_stripLine line
  rw [stripped, List.filter_nil] at tags
  have tagless : line.any Token.isTag = false := by
    rw [List.any_eq_false]
    exact fun token member => List.filter_eq_nil_iff.1 tags.symm token member
  simpa [stripLine, standsAlone, tagless] using stripped

theorem settle_ne_nil {pieces : List Piece} (proper : ∀ piece ∈ pieces, piece.Proper)
    (nonempty : pieces ≠ []) : settle {} pieces ≠ [] := by
  intro settled
  rw [settle_eq_stripped_lines proper, List.flatMap_eq_nil_iff] at settled
  have lines : (cutAfterLines (rawTokens pieces)).flatten = [] :=
    List.flatten_eq_nil_iff.2 fun line member => eq_nil_of_stripLine (settled line member)
  rw [flatten_cutAfterLines] at lines
  obtain ⟨piece, rest, rfl⟩ := List.exists_cons_of_ne_nil nonempty
  contradiction

theorem eq_empty_of_parseTemplate_nil {name : Option String}
    (parsed : parseTemplate source pair name = .ok []) : source = "" := by
  obtain ⟨⟨inForce, ended⟩, -, nests⟩ := parseTemplate_eq_ok_iff.1 parsed
  have run := readsAll_scan ended
  have pieces : (scan pair source.toList).pieces = [] := by
    by_contra nonempty
    have tokens := squash_ne_nil (settle_ne_nil run.proper nonempty)
    obtain ⟨token, rest, whole⟩ := List.exists_cons_of_ne_nil tokens
    rw [whole] at nests
    cases nests
  rw [pieces, readsAll_nil] at run
  exact String.toList_eq_nil_iff.1 (congrArg Reader.rest run)

theorem parseTemplate_opening (pair : Delimiters) (name : Option String) :
    parseTemplate (String.ofList pair.opening) pair name ≠ .ok nodes := by
  intro parsed
  obtain ⟨⟨inForce, ended⟩, -⟩ := parseTemplate_eq_ok_iff.1 parsed
  have opened : pair.opening.isPrefixOf pair.opening = true := by simp
  have unread : readTag? pair pair.opening = none := by
    cases found : readTag? pair pair.opening with
    | none => rfl
    | some tag =>
      have longer := opening_length_lt_of_readTag? found opened
      have bound := length_le_of_readTag? found
      omega
  obtain ⟨c, rest, whole⟩ := List.exists_cons_of_ne_nil pair.opening_ne_nil
  rw [String.toList_ofList, scan, whole, scanFrom] at ended
  rw [whole] at unread
  simp [whole, unread] at ended

theorem scanFrom_of_short {text : List Char} (short : text.length < pair.opening.length)
    (offset : Nat) :
    (scanFrom pair 0 offset text).ending = .complete pair ∧
      openAfterAll [] (scanFrom pair 0 offset text).pieces = .ok [] := by
  induction text generalizing offset with
  | nil => exact ⟨rfl, rfl⟩
  | cons c rest ih =>
    have plain : pair.opening.isPrefixOf (c :: rest) = false := by
      rw [← Bool.not_eq_true, List.isPrefixOf_iff_prefix]
      intro inside
      have bound := inside.length_le
      omega
    have later := ih (by simp only [List.length_cons] at short; omega) (offset + 1)
    rw [scanFrom]
    simpa [plain, Scan.prepend, openAfterAll, openAfter] using later

theorem exists_parseTemplate_of_short (source : String)
    (short : source.toList.length < pair.opening.length)
    (name : Option String) : ∃ nodes, parseTemplate source pair name = .ok nodes := by
  obtain ⟨ended, matched⟩ := scanFrom_of_short short 0
  obtain ⟨nodes, nests⟩ := exists_nests_squash_settle (readsAll_scan ended).proper matched
  exact ⟨nodes, parseTemplate_eq_ok_iff.2 ⟨⟨pair, ended⟩, matched, nests⟩⟩

end Parsing

section Keeping

variable {engine : Engine} {slot : Nat} {s : Session} {pair : Delimiters} {source : String}
  {name : Option String} {nodes : List Node}

theorem Session.cache_setCache (room : slot < s.caches.length) (cache : TreeCache) :
    (s.setCache slot cache).cache slot = cache := by
  simp [Session.setCache, Session.cache, room]

theorem TreeCache.lookup_insert {cache : TreeCache} {key : String}
    (missing : cache.entries.lookup key = none) :
    (cache.insert key nodes).entries.lookup key = some nodes := by
  simp [insert, contains, missing]

theorem Engine.parse_of_kept (keeps : engine.cache = .keepFirst slot)
    (kept : (s.cache slot).entries.lookup (pair.cacheKey source) = some nodes) :
    (engine.parse source pair name s).1 = .ok (.parsed nodes) := by
  have asked : engine.cache.find (pair.cacheKey source) s =
      (.ok (some (.parsed nodes)),
        s.setCache slot ((s.cache slot).find (pair.cacheKey source)).2) := by
    rw [keeps, CacheHandle.find_keepFirst, kept]
    rfl
  unfold Engine.parse
  rw [Action.bind_of_ok asked]
  rfl

theorem Engine.kept_of_parse (keeps : engine.cache = .keepFirst slot)
    (room : slot < s.caches.length)
    (missing : (s.cache slot).entries.lookup (pair.cacheKey source) = none)
    (parsed : parseTemplate source pair name = .ok nodes) :
    (engine.parse source pair name s).1 = .ok (.parsed nodes) ∧
      ((engine.parse source pair name s).2.cache slot).entries.lookup (pair.cacheKey source) =
        some nodes := by
  let asked := s.setCache slot ((s.cache slot).find (pair.cacheKey source)).2
  have answer : engine.cache.find (pair.cacheKey source) s = (.ok none, asked) := by
    rw [keeps, CacheHandle.find_keepFirst, missing]
    rfl
  unfold Engine.parse
  rw [Action.bind_of_ok answer, parsed, keeps]
  refine ⟨rfl, ?_⟩
  let logged : Session := { asked with log := .treeMissing name source pair :: asked.log }
  change ((logged.setCache slot ((logged.cache slot).insert (pair.cacheKey source) nodes)).cache
    slot).entries.lookup (pair.cacheKey source) = some nodes
  have there : logged.cache slot = ((s.cache slot).find (pair.cacheKey source)).2 :=
    Session.cache_setCache room _
  rw [Session.cache_setCache (by simpa [logged, asked, Session.setCache] using room)]
  apply TreeCache.lookup_insert
  rw [there, TreeCache.entries_find, missing]

end Keeping

def Delimiters.toValue (pair : Delimiters) : Value :=
  .tuple [.str (String.ofList pair.opening), .str (String.ofList pair.closing)]

theorem ofValue_toValue (pair : Delimiters) : Delimiters.ofValue pair.toValue = .ok pair := by
  simp [Delimiters.ofValue, Delimiters.toValue, Value.items?, Delimiters.ofPair?,
    pair.opening_ne_nil, pair.closing_ne_nil]

theorem namedPair?_toValue (pair : Delimiters) : namedPair? pair.toValue = some pair := by
  change (Delimiters.ofValue pair.toValue).toOption = some pair
  rw [ofValue_toValue]
  rfl

theorem Engine.fst_parse_uncached (engine : Engine) (source : String) (pair : Delimiters)
    (name : Option String) (s : Session) :
    (engine.uncached.parse source pair name s).1 =
      (parseTemplate source pair name).map Tree.parsed := by
  rw [Engine.parse_uncached]
  cases parseTemplate source pair name <;> rfl

theorem World.step_parse {world : World} {place : Nat} (engine : Engine)
    (found : world.engines[place]? = some engine) (depth : Nat) (source : String)
    (pair : Delimiters) (name : Option String) :
    world.step depth (.parse place source pair.toValue name) =
      ((engine.parse source pair name world.session).1.map Answer.tree,
        { world with session := (engine.parse source pair name world.session).2 }) := by
  have paired : Action.ofExcept (engine.pairFor pair.toValue) world.session =
      (.ok pair, world.session) := by
    change Action.ofExcept (Delimiters.ofValue pair.toValue) world.session = _
    rw [ofValue_toValue]
    rfl
  unfold World.step World.ask
  simp only [found]
  rw [Action.bind_of_ok paired, Action.bind_pure_apply]

/-- Caches cannot be noticed: every history over the pairs in use is answered alike without them. -/
def Unnoticed (inUse : Delimiters → Prop) : Prop :=
  ∀ (depth : Nat) (world : World) (history : List Operation), world.Fresh →
    (∀ engine ∈ world.engines, inUse engine.pair) →
    (∀ operation ∈ history, ∀ pair, operation.pair? = some pair → inUse pair) →
    world.answers depth history = world.uncached.answers depth history

theorem parse_of_sameKey {inUse : Delimiters → Prop} (unnoticed : Unnoticed inUse)
    {p q : Delimiters} (usedP : inUse p) (usedQ : inUse q) {source other : String}
    {nodes : List Node} (same : p.cacheKey source = q.cacheKey other)
    (parsed : parseTemplate source p = .ok nodes) : parseTemplate other q = .ok nodes := by
  -- One engine is asked for both sources, so the second finds the tree of the first.
  let engine : Engine := { pair := p, cache := .keepFirst 0 }
  let world : World := { engines := [engine], session := { caches := [{}] } }
  have fresh : world.Fresh := ⟨by simp [world, engine], by simp [world], rfl⟩
  let ask : Operation := .parse 0 source p.toValue none
  let again : Operation := .parse 0 other q.toValue none
  have named : ∀ operation ∈ [ask, again], ∀ pair, operation.pair? = some pair → inUse pair := by
    simp [ask, again, Operation.pair?, namedPair?_toValue, usedP, usedQ]
  have alike := unnoticed 0 world _ fresh (by simpa [world, engine] using usedP) named
  have kept : ((engine.parse source p none world.session).2.cache 0).entries.lookup
      (p.cacheKey source) = some nodes :=
    (Engine.kept_of_parse rfl (by simp [world]) rfl parsed).2
  rw [same] at kept
  have cached : ((world.step 0 ask).2.step 0 again).1 = .ok (.tree (.parsed nodes)) := by
    rw [World.step_parse engine rfl, World.step_parse engine rfl,
      Engine.parse_of_kept rfl kept]
    rfl
  have uncached : ((world.uncached.step 0 ask).2.step 0 again).1 =
      ((parseTemplate other q).map Tree.parsed).map Answer.tree := by
    rw [World.step_parse engine.uncached rfl,
      World.step_parse engine.uncached rfl, Engine.fst_parse_uncached]
  have second := (List.cons.inj (List.cons.inj alike).2).1
  rw [cached, uncached] at second
  cases answer : parseTemplate other q with
  | error fault =>
    rw [answer] at second
    contradiction
  | ok found =>
    rw [answer] at second
    cases second
    rfl

theorem opening_length_le_of_unnoticed {inUse : Delimiters → Prop} (unnoticed : Unnoticed inUse)
    {p q : Delimiters} (usedP : inUse p) (usedQ : inUse q) (same : p.keyEnd = q.keyEnd) :
    q.opening.length ≤ p.opening.length := by
  apply Nat.le_of_not_lt
  intro shorter
  -- The shorter one is text under the other pair, and an open tag under its own.
  obtain ⟨nodes, parsed⟩ := exists_parseTemplate_of_short (String.ofList p.opening)
    (by simpa using shorter) none
  have keys : q.cacheKey (String.ofList p.opening) = p.cacheKey (String.ofList p.opening) :=
    cacheKey_eq_iff.2 (by rw [same])
  exact parseTemplate_opening p none (parse_of_sameKey unnoticed usedQ usedP keys parsed)

theorem unnoticed_of_toldApart {inUse : Delimiters → Prop} (apart : ToldApart inUse) :
    Unnoticed inUse := by
  intro depth world history fresh used named
  exact (fresh.agrees used).answers apart depth named

theorem unnoticed_of_noColon {inUse : Delimiters → Prop}
    (noColon : ∀ pair, inUse pair → ':' ∉ pair.opening ∧ ':' ∉ pair.closing) : Unnoticed inUse :=
  unnoticed_of_toldApart (toldApart_of_noColon noColon)

theorem unnoticed_iff_toldApart (inUse : Delimiters → Prop) :
    Unnoticed inUse ↔ ToldApart inUse := by
  constructor
  · rintro unnoticed p q usedP usedQ ⟨ahead, whole⟩
    -- What stands ahead has the key of the empty source under the other pair, so it is empty.
    have keys : q.cacheKey "" = p.cacheKey (String.ofList ahead) :=
      cacheKey_eq_iff.2 (by simpa using whole.symm)
    have parsed := parse_of_sameKey unnoticed usedQ usedP keys
      (show parseTemplate "" q = .ok [] from rfl)
    have empty : ahead = [] := by
      simpa [← String.toList_inj] using eq_empty_of_parseTemplate_nil parsed
    rw [empty, List.nil_append] at whole
    have openings : p.opening.length = q.opening.length :=
      Nat.le_antisymm (opening_length_le_of_unnoticed unnoticed usedQ usedP whole.symm)
        (opening_length_le_of_unnoticed unnoticed usedP usedQ whole)
    have tails : p.opening ++ ':' :: p.closing = q.opening ++ ':' :: q.closing :=
      (List.cons.inj whole).2
    obtain ⟨opening, closing⟩ := List.append_inj tails openings
    exact Delimiters.eq_of_parts opening (List.cons.inj closing).2
  · exact unnoticed_of_toldApart

/-- Two pairs that add the same to a key. The second source is answered with the tree of the first
one. -/
theorem answers_of_meeting_keys :
    ∃ (world : World) (history : List Operation), world.Fresh ∧
      history = [
        .parse 0 "x" (.tuple [.str "a:b", .str "c"]) none,
        .parse 0 "x:a" (.tuple [.str "b", .str "c"]) none] ∧
      world.answers 0 history = [
        .ok (.tree (.parsed [.leaf ⟨.text, "x", 0, 1, {}⟩])),
        .ok (.tree (.parsed [.leaf ⟨.text, "x", 0, 1, {}⟩]))] ∧
      world.uncached.answers 0 history = [
        .ok (.tree (.parsed [.leaf ⟨.text, "x", 0, 1, {}⟩])),
        .ok (.tree (.parsed [.leaf ⟨.text, "x:a", 0, 3, {}⟩]))] := by
  let world : World := { engines := [{ cache := .keepFirst 0 }], session := { caches := [{}] } }
  have fresh : world.Fresh := ⟨by simp [world], by simp [world], rfl⟩
  exact ⟨world, _, fresh, rfl, rfl, rfl⟩

end Mustache
