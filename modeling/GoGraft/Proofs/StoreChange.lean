import GoGraft.Proofs.Results
import GoGraft.Store.Replace

/-!
# What replacing a file does to a store

A file is staged at a location that nothing has, and every stage up to the last touches only the entry there. So a
replacement that the system stops, wherever it does, leaves the store that there was once the staged entry is removed.
One that succeeds leaves the new content and the old mode at the target, and every other entry as it was.
-/

namespace GoGraft.Store

variable {store after : Store} {location other : Location} {entry : Entry}

theorem lookup_map_of_ne (entries : List (Location × Entry)) (hne : other ≠ location) :
    (entries.map fun (place, old) => if place = location then (place, entry) else (place, old)).lookup
      other = entries.lookup other := by
  induction entries with
  | nil => rfl
  | cons head entries ih =>
      obtain ⟨place, old⟩ := head
      by_cases hplace : place = location
      · have hother : (other == place) = false := by
          rw [hplace]
          exact beq_false_of_ne hne
        simp only [List.map_cons, List.lookup_cons, hplace, ↓reduceIte]
        rw [hplace] at hother
        simp only [hother]
        exact ih
      · simp only [List.map_cons, List.lookup_cons, hplace, ↓reduceIte, ih]

theorem lookup_map_self (entries : List (Location × Entry))
    (hsome : (entries.lookup location).isSome) :
    (entries.map fun (place, old) => if place = location then (place, entry) else (place, old)).lookup
      location = some entry := by
  induction entries with
  | nil => cases hsome
  | cons head entries ih =>
      obtain ⟨place, old⟩ := head
      by_cases hplace : place = location
      · simp [hplace]
      · have hother : (location == place) = false := beq_false_of_ne (Ne.symm hplace)
        simp only [List.lookup_cons, hother] at hsome
        simp only [List.map_cons, hplace, ↓reduceIte, List.lookup_cons, hother]
        exact ih hsome

theorem entry?_set_of_ne (hne : other ≠ location) :
    entry? (store.set location entry) other = store.entry? other := by
  unfold entry? set
  split
  · rfl
  split
  · exact lookup_map_of_ne store.entries hne
  · have hother : (other == location) = false := beq_false_of_ne hne
    rw [List.lookup_append, List.lookup_cons, hother]
    simp

theorem entry?_set_self (hlocation : location ≠ []) :
    entry? (store.set location entry) location = some entry := by
  have hempty : location.isEmpty = false := by
    cases location with
    | nil => exact absurd rfl hlocation
    | cons => rfl
  unfold entry? set
  rw [hempty]
  simp only [Bool.false_eq_true, ↓reduceIte]
  split
  · rename_i hsome
    exact lookup_map_self store.entries hsome
  · rename_i hnone
    rw [List.lookup_append, Option.not_isSome_iff_eq_none.mp hnone]
    simp

section Walks

theorem foldlM_of_walk? {names : List Text} (hwalk : store.walk? location names = some other) :
    names.foldlM follow? location = some other := by
  induction names generalizing location with
  | nil => exact hwalk
  | cons name names ih =>
      rw [walk?] at hwalk
      split at hwalk
      · obtain ⟨next, hnext, hwalk⟩ := Option.bind_eq_some_iff.mp hwalk
        rw [List.foldlM_cons, hnext]
        exact ih hwalk
      · cases hwalk

theorem locate?_of_resolve? {path : Text} (hresolve : store.resolve? path = some location) :
    locate? path = some location := by
  unfold resolve? at hresolve
  unfold locate?
  split at hresolve
  · cases hresolve
  · rename_i hpath
    rw [if_neg hpath]
    exact foldlM_of_walk? hresolve

/-- Only the directories of a store matter for where names lead. -/
theorem walk?_congr (hsame : ∀ other, after.isDirectory other = store.isDirectory other) (location : Location)
    (names : List Text) : after.walk? location names = store.walk? location names := by
  induction names generalizing location with
  | nil => rfl
  | cons name names ih => simp only [walk?, hsame, ih]

theorem resolve?_congr (hsame : ∀ other, after.isDirectory other = store.isDirectory other) (path : Text) :
    after.resolve? path = store.resolve? path := by
  rw [resolve?, resolve?, walk?_congr hsame]

theorem home?_congr (hsame : ∀ other, after.isDirectory other = store.isDirectory other) (path : Text) :
    after.home? path = store.home? path := by
  have hfun : after.isDirectory = store.isDirectory := funext hsame
  rw [home?, home?, walk?_congr hsame, hfun]

theorem target_eq_ok {path : Text} :
    store.target path = .ok location ↔
      endsWithName path ∧ store.resolve? path = some location ∧ store.isDirectory location = false := by
  unfold target
  split
  · cases store.resolve? path with
    | none => simp_all
    | some found =>
        by_cases hdirectory : store.isDirectory found
        · simp only [hdirectory, if_true]
          grind
        · simp only [hdirectory]
          grind
  · simp_all

end Walks

/-! ### An entry that is staged -/

theorem lt_foldl_max {name : Text} {others : List Text} (hname : name ∈ others) (start : Nat) :
    name.length ≤ others.foldl (fun length name => max length name.length) start := by
  have hstart (others : List Text) (start : Nat) :
      start ≤ others.foldl (fun length name => max length name.length) start := by
    induction others generalizing start with
    | nil => exact Nat.le_refl _
    | cons other others ih => exact Nat.le_trans (Nat.le_max_left ..) (ih _)
  induction others generalizing start with
  | nil => cases hname
  | cons other others ih =>
      obtain rfl | hname := List.mem_cons.mp hname
      · exact Nat.le_trans (Nat.le_max_right ..) (hstart others _)
      · exact ih hname _

theorem freshName_not_mem (others : List Text) : freshName others ∉ others := by
  intro hmem
  have hle := lt_foldl_max hmem 0
  rw [freshName, List.length_append, List.length_replicate, show ".tmp".toList.length = 4 from rfl] at hle
  omega

/-- Nothing is at a location. -/
structure IsFree (store : Store) (location : Location) : Prop where
  ne_nil : location ≠ []
  absent : ∀ item ∈ store.entries, item.1 ≠ location

/-- A store with an entry more. -/
def withEntry (store : Store) (location : Location) (entry : Entry) : Store :=
  ⟨store.entries ++ [(location, entry)]⟩

section Staged

variable {staged : Location} {content : Bytes} {mode : Nat}

theorem isFree_freshName (store : Store) (directory : Location) (others : List Text) :
    IsFree store (directory ++ [freshName (store.names directory ++ others)]) := by
  refine ⟨by simp, ?_⟩
  rintro ⟨place, entry⟩ hitem rfl
  refine freshName_not_mem (store.names directory ++ others) (List.mem_append_left _ ?_)
  refine List.mem_filterMap.mpr ⟨_, hitem, ?_⟩
  simp

theorem IsFree.lookup (hfree : store.IsFree staged) : store.entries.lookup staged = none := by
  refine List.lookup_eq_none_iff.mpr fun item hitem => ?_
  exact bne_iff_ne.mpr (Ne.symm (hfree.absent item hitem))

theorem IsFree.set (hfree : store.IsFree staged) (entry : Entry) :
    store.set staged entry = store.withEntry staged entry := by
  rw [Store.set, hfree.lookup]
  rfl

theorem IsFree.set_withEntry (hfree : store.IsFree staged) (old new : Entry) :
    (store.withEntry staged old).set staged new = store.withEntry staged new := by
  have hsome : ((store.withEntry staged old).entries.lookup staged).isSome := by
    simp [withEntry, List.lookup_append, hfree.lookup]
  have hmap : store.entries.map (fun (other, old) => if other = staged then (other, new) else (other, old)) =
      store.entries := by
    refine (List.map_congr_left fun item hitem => ?_).trans (List.map_id _)
    exact if_neg (hfree.absent item hitem)
  rw [Store.set, if_pos hsome, withEntry, List.map_append, hmap]
  simp [withEntry]

theorem IsFree.discard_withEntry (hfree : store.IsFree staged) (entry : Entry) :
    (store.withEntry staged entry).discard staged = store := by
  have hfilter : store.entries.filter (fun (other, _) => other ≠ staged) = store.entries :=
    List.filter_eq_self.mpr fun item hitem => decide_eq_true (hfree.absent item hitem)
  rw [discard, withEntry, List.filter_append, hfilter]
  simp

theorem IsFree.entry?_withEntry (hfree : store.IsFree staged) (entry : Entry) :
    entry? (store.withEntry staged entry) staged = some entry := by
  rw [← hfree.set entry]
  exact entry?_set_self hfree.ne_nil

theorem IsFree.entry?_withEntry_of_ne (hfree : store.IsFree staged) (entry : Entry) (hne : other ≠ staged) :
    entry? (store.withEntry staged entry) other = store.entry? other := by
  rw [← hfree.set entry]
  exact entry?_set_of_ne hne

theorem IsFree.isDirectory_withEntry (hfree : store.IsFree staged) (content : Bytes) (mode : Nat) (other : Location) :
    (store.withEntry staged (.file content mode)).isDirectory other = store.isDirectory other := by
  by_cases hother : other = staged
  · have hnone : store.entry? staged = none := by
      rw [Store.entry?, if_neg (by simp [hfree.ne_nil]), hfree.lookup]
    rw [hother, isDirectory, isDirectory, hfree.entry?_withEntry, hnone]
  · rw [isDirectory, isDirectory, hfree.entry?_withEntry_of_ne _ hother]

theorem IsFree.setModeAt_withEntry (hfree : store.IsFree staged) (content : Bytes) (old new : Nat) :
    (store.withEntry staged (.file content old)).setModeAt staged new = store.withEntry staged (.file content new) := by
  rw [setModeAt, hfree.entry?_withEntry]
  exact hfree.set_withEntry _ _

theorem IsFree.move_withEntry (hfree : store.IsFree staged) (entry : Entry) (target : Location) :
    (store.withEntry staged entry).move staged target = store.set target entry := by
  rw [move, hfree.entry?_withEntry]
  dsimp only
  rw [hfree.discard_withEntry]

end Staged

section Replacing

variable {refusal : Option Refusal} {path : Text} {content : Bytes} {staged : Location}
  {attempt : Attempt Store StoreError Unit}

/-- The mode of a file after it was replaced: that of the entry before, if there was one. -/
def modeFor (store : Store) (path : Text) : Nat :=
  ((store.get? path).map Entry.mode).getD privateMode

theorem create_of_home? {directory : Location} (hhome : store.home? path = some directory)
    (hrefusal : refusal ≠ some .create) :
    ∃ staged, store.IsFree staged ∧ (∀ location, locate? path = some location → location ≠ staged) ∧
      store.create refusal path = ⟨store.withEntry staged (.file [] privateMode), .ok staged⟩ := by
  refine ⟨_, isFree_freshName store directory ((locate? path).getD []), ?_, ?_⟩
  · intro location hlocate hsame
    have hlast := congrArg List.getLast? hsame
    rw [List.getLast?_concat, hlocate] at hlast
    exact freshName_not_mem _ (List.mem_append_right _ (List.mem_of_getLast? hlast))
  · rw [create, hhome]
    dsimp only
    rw [if_neg hrefusal, (isFree_freshName ..).set]
    rfl

theorem create_cases (refusal : Option Refusal) (path : Text) (store : Store) :
    (store.create refusal path = ⟨store, .error .inaccessible⟩ ∧ (refusal = none → store.home? path = none)) ∨
      ∃ directory staged, store.home? path = some directory ∧ store.IsFree staged ∧
        (∀ location, locate? path = some location → location ≠ staged) ∧
        store.create refusal path = ⟨store.withEntry staged (.file [] privateMode), .ok staged⟩ := by
  cases hhome : store.home? path with
  | none =>
      refine .inl ⟨?_, fun _ => rfl⟩
      rw [create, hhome]
      rfl
  | some directory =>
      by_cases hrefusal : refusal = some .create
      · refine .inl ⟨?_, fun hnone => ?_⟩
        · rw [create, hhome]
          exact if_pos hrefusal
        · rw [hrefusal] at hnone
          cases hnone
      · obtain ⟨staged, hcreate⟩ := create_of_home? hhome hrefusal
        exact .inr ⟨directory, staged, rfl, hcreate⟩

/-- A stage has touched nothing but the staged entry, which is the given one unless the system has refused to go on. -/
def StagesTo (refusal : Option Refusal) (store : Store) (staged : Location) (entry : Entry)
    (attempt : Attempt Store StoreError Unit) : Prop :=
  (refusal ≠ none ∧ ∃ current error, attempt = ⟨store.withEntry staged current, .error error⟩) ∨
    attempt = ⟨store.withEntry staged entry, .ok ()⟩

theorem StagesTo.andThen {next : Store → Unit → Attempt Store StoreError Unit} {later : Entry}
    (hattempt : StagesTo refusal store staged entry attempt)
    (hnext : StagesTo refusal store staged later (next (store.withEntry staged entry) ())) :
    StagesTo refusal store staged later (attempt.andThen next) := by
  obtain ⟨hrefusal, current, error, rfl⟩ | rfl := hattempt
  · exact .inl ⟨hrefusal, current, error, rfl⟩
  · exact hnext

theorem stagesTo_fill (refusal : Option Refusal) (content : Bytes) (hfree : store.IsFree staged) (entry : Entry) :
    StagesTo refusal store staged (.file content privateMode)
      ((store.withEntry staged entry).fill refusal staged content) := by
  unfold fill
  split
  · rw [hfree.set_withEntry]
    exact .inl ⟨Option.some_ne_none _, _, _, rfl⟩
  · rw [hfree.set_withEntry]
    exact .inl ⟨Option.some_ne_none _, _, _, rfl⟩
  · rw [hfree.set_withEntry]
    exact .inr rfl

theorem IsFree.get?_withEntry (hfree : store.IsFree staged)
    (hne : ∀ location, locate? path = some location → location ≠ staged) (content : Bytes) (mode : Nat) :
    (store.withEntry staged (.file content mode)).get? path = store.get? path := by
  rw [get?, get?, resolve?_congr (hfree.isDirectory_withEntry content mode)]
  cases hresolve : store.resolve? path with
  | none => rfl
  | some location => exact hfree.entry?_withEntry_of_ne _ (hne location (locate?_of_resolve? hresolve))

theorem stagesTo_carryMode (refusal : Option Refusal) (content : Bytes) (hfree : store.IsFree staged)
    (hne : ∀ location, locate? path = some location → location ≠ staged) :
    StagesTo refusal store staged (.file content (store.modeFor path))
      ((store.withEntry staged (.file content privateMode)).carryMode refusal staged path) := by
  unfold carryMode
  rw [hfree.get?_withEntry hne, modeFor]
  cases store.get? path with
  | none => exact .inr rfl
  | some target =>
      dsimp only
      split
      · rename_i hrefusal
        exact .inl ⟨hrefusal ▸ Option.some_ne_none _, _, _, rfl⟩
      · rw [hfree.setModeAt_withEntry]
        exact .inr rfl

theorem stagesTo_sync (refusal : Option Refusal) (store : Store) (staged : Location) (entry : Entry) :
    StagesTo refusal store staged entry ((store.withEntry staged entry).sync refusal) := by
  unfold sync
  split
  · rename_i hrefusal
    exact .inl ⟨hrefusal ▸ Option.some_ne_none _, _, _, rfl⟩
  · exact .inr rfl

theorem rename_cases (refusal : Option Refusal) (path : Text) (hfree : store.IsFree staged) (content : Bytes) (mode : Nat) :
    (∃ error, (store.withEntry staged (.file content mode)).rename refusal staged path =
        ⟨store.withEntry staged (.file content mode), .error error⟩ ∧
        (refusal = none → ∀ location, store.target path ≠ .ok location)) ∨
      ∃ location, store.target path = .ok location ∧
        (store.withEntry staged (.file content mode)).rename refusal staged path =
          ⟨store.set location (.file content mode), .ok ()⟩ := by
  have htarget (location : Location) :
      (store.withEntry staged (.file content mode)).target path = .ok location ↔ store.target path = .ok location := by
    rw [target_eq_ok, target_eq_ok, resolve?_congr (hfree.isDirectory_withEntry content mode),
      hfree.isDirectory_withEntry]
  unfold rename
  split
  · rename_i reason hreason
    refine .inl ⟨_, rfl, fun _ location hlocation => ?_⟩
    cases hreason.symm.trans ((htarget location).mpr hlocation)
  · exact .inl ⟨_, rfl, fun hnone => absurd hnone (Option.some_ne_none _)⟩
  · rename_i location hlocation _
    refine .inr ⟨location, (htarget location).mp hlocation, ?_⟩
    rw [hfree.move_withEntry]
    rfl

/-- Wherever the system stops a replacement, the store is as it was. A replacement that it lets through sets nothing but
the target. -/
theorem replace_cases (refusal : Option Refusal) (path : Text) (content : Bytes) (store : Store) :
    (∃ error, store.replace refusal path content = ⟨store, .error error⟩ ∧
        (refusal = none → store.home? path = none ∨ ∀ location, store.target path ≠ .ok location)) ∨
      ∃ directory location, store.home? path = some directory ∧ store.target path = .ok location ∧
        store.replace refusal path content = ⟨store.set location (.file content (store.modeFor path)), .ok ()⟩ := by
  unfold replace
  obtain ⟨hcreate, hnone⟩ | ⟨directory, staged, hhome, hfree, hne, hcreate⟩ := create_cases refusal path store
  · rw [hcreate]
    exact .inl ⟨_, rfl, fun hrefusal => .inl (hnone hrefusal)⟩
  rw [hcreate]
  have hstaged : StagesTo refusal store staged (.file content (store.modeFor path))
      ((((store.withEntry staged (.file [] privateMode)).fill refusal staged content).andThen
        fun store _ => store.carryMode refusal staged path).andThen fun store _ => store.sync refusal) :=
    ((stagesTo_fill refusal content hfree _).andThen (stagesTo_carryMode refusal content hfree hne)).andThen
      (stagesTo_sync refusal store staged _)
  rw [Attempt.andThen]
  dsimp only
  obtain ⟨hrefusal, current, error, hstaged⟩ | hstaged := hstaged
  · rw [hstaged]
    exact .inl ⟨error, congrArg (Attempt.mk · _) (hfree.discard_withEntry current), fun hnone => absurd hnone hrefusal⟩
  · rw [hstaged, Attempt.andThen]
    dsimp only
    obtain ⟨error, hrename, hnone⟩ | ⟨location, htarget, hrename⟩ :=
      rename_cases refusal path hfree content (store.modeFor path)
    · rw [hrename]
      exact .inl ⟨error, congrArg (Attempt.mk · _) (hfree.discard_withEntry _), fun hrefusal => .inr (hnone hrefusal)⟩
    · rw [hrename]
      exact .inr ⟨directory, location, hhome, htarget, rfl⟩

theorem replace_of_target {directory : Location} (hhome : store.home? path = some directory)
    (htarget : store.target path = .ok location) (content : Bytes) :
    store.replace none path content = ⟨store.set location (.file content (store.modeFor path)), .ok ()⟩ := by
  obtain ⟨error, -, hnone⟩ | ⟨_, location', -, htarget', hreplace⟩ := replace_cases none path content store
  · obtain hmissing | hrefused := hnone rfl
    · cases hhome.symm.trans hmissing
    · exact absurd htarget (hrefused location)
  · obtain rfl := Except.ok.inj (htarget.symm.trans htarget')
    exact hreplace

theorem replace_eq_error {error : StoreError} (hreplace : store.replace refusal path content = ⟨after, .error error⟩) :
    after = store := by
  obtain ⟨_, hfails, -⟩ | ⟨_, _, -, -, hsucceeds⟩ := replace_cases refusal path content store
  · exact (Attempt.mk.inj (hreplace.symm.trans hfails)).1
  · cases hreplace.symm.trans hsucceeds

theorem replace_eq_ok (hreplace : store.replace refusal path content = ⟨after, .ok ()⟩) :
    ∃ directory location, store.home? path = some directory ∧ store.target path = .ok location ∧
      after.entry? location = some (.file content (store.modeFor path)) ∧
      ∀ other, other ≠ location → after.entry? other = store.entry? other := by
  obtain ⟨error, hfails, -⟩ | ⟨directory, location, hhome, htarget, hsucceeds⟩ :=
    replace_cases refusal path content store
  · cases hreplace.symm.trans hfails
  · obtain ⟨rfl, -⟩ := Attempt.mk.inj (hreplace.symm.trans hsucceeds)
    have hlocation : location ≠ [] := by
      rintro rfl
      exact Bool.noConfusion (target_eq_ok.mp htarget).2.2
    exact ⟨directory, location, hhome, htarget, entry?_set_self hlocation, fun other hne => entry?_set_of_ne hne⟩

/-- Where only files have changed, every directory is as it was. -/
theorem isDirectory_of_others (hfile : store.isDirectory location = false) (hafter : after.isDirectory location = false)
    (hothers : ∀ other, other ≠ location → after.entry? other = store.entry? other) (other : Location) :
    after.isDirectory other = store.isDirectory other := by
  by_cases hother : other = location
  · rw [hother, hfile, hafter]
  · rw [isDirectory, isDirectory, hothers other hother]

theorem isDirectory_of_file {mode : Nat} (hentry : store.entry? location = some (.file content mode)) :
    store.isDirectory location = false := by
  rw [isDirectory, hentry]

theorem resolve?_of_others {current : Bytes} {mode mode' : Nat} (hentry : store.entry? location = some (.file current mode))
    (hafter : after.entry? location = some (.file content mode'))
    (hothers : ∀ other, other ≠ location → after.entry? other = store.entry? other) (path : Text) :
    after.resolve? path = store.resolve? path :=
  resolve?_congr (isDirectory_of_others (isDirectory_of_file hentry) (isDirectory_of_file hafter) hothers) path

theorem replace_of_file {current : Bytes} {mode : Nat} (hresolve : store.resolve? path = some location)
    (hentry : store.entry? location = some (.file current mode))
    (hreplace : store.replace refusal path content = ⟨after, .ok ()⟩) :
    after.entry? location = some (.file content mode) ∧
      ∀ other, other ≠ location → after.entry? other = store.entry? other := by
  obtain ⟨_, location', -, htarget, hself, hothers⟩ := replace_eq_ok hreplace
  obtain rfl := Option.some.inj (hresolve.symm.trans (target_eq_ok.mp htarget).2.1)
  have hmode : store.modeFor path = mode := by
    simp [modeFor, get?, hresolve, hentry, Entry.mode]
  exact ⟨hmode ▸ hself, hothers⟩

/-- A file that was replaced can be replaced again, and with the same content all is as it was. -/
theorem replace_again (hreplace : store.replace refusal path content = ⟨after, .ok ()⟩) :
    ∃ again, after.replace none path content = ⟨again, .ok ()⟩ ∧
      ∀ location, again.entry? location = after.entry? location := by
  obtain ⟨directory, location, hhome, htarget, hself, hothers⟩ := replace_eq_ok hreplace
  obtain ⟨hname, hresolve, hfile⟩ := target_eq_ok.mp htarget
  have hsame := isDirectory_of_others hfile (isDirectory_of_file hself) hothers
  rw [← home?_congr hsame] at hhome
  rw [← resolve?_congr hsame] at hresolve
  rw [← hsame] at hfile
  have hagain := replace_of_target hhome (target_eq_ok.mpr ⟨hname, hresolve, hfile⟩) content
  refine ⟨_, hagain, fun other => ?_⟩
  obtain ⟨hagainSelf, hagainOthers⟩ := replace_of_file hresolve hself hagain
  by_cases hother : other = location
  · rw [hother, hagainSelf, hself]
  · exact hagainOthers other hother

end Replacing

theorem read_eq_ok {path : Text} {limit : Nat} {content : Bytes}
    (hread : store.read path limit = .ok content) :
    ∃ location mode, store.resolve? path = some location ∧
      store.entry? location = some (.file content mode) ∧ content.length ≤ limit ∧ isBinary content = false := by
  unfold read at hread
  cases hget : store.get? path with
  | none =>
      rw [hget] at hread
      cases hread
  | some found =>
      rw [hget] at hread
      cases found with
      | directory mode => cases hread
      | file stored mode =>
          simp only at hread
          split at hread
          · cases hread
          split at hread
          · cases hread
          · rename_i hlimit hbinary
            obtain rfl := Except.ok.inj hread
            obtain ⟨location, hresolve, hentry⟩ := Option.bind_eq_some_iff.mp hget
            exact ⟨location, mode, hresolve, hentry, by omega, by simpa using hbinary⟩

section Restoring

variable {refusals : Refusals} {path : Text} {content current : Bytes} {mode : Nat}

/-- A file that was restored has the content and its mode. -/
theorem restore_eq_ok {changed : Bool} (hrestore : store.restore refusals path content = ⟨after, .ok changed⟩)
    (hresolve : store.resolve? path = some location) (hentry : store.entry? location = some (.file current mode)) :
    after.entry? location = some (.file content mode) ∧
      ∀ other, other ≠ location → after.entry? other = store.entry? other := by
  unfold restore at hrestore
  split at hrestore
  · rename_i hsame
    obtain ⟨rfl, -⟩ := Attempt.mk.inj hrestore
    have hcontent : current = content := by
      simpa [get?, hresolve, hentry, Entry.content?] using ((Bool.and_eq_true ..).mp hsame).2
    exact ⟨hcontent ▸ hentry, fun _ _ => rfl⟩
  · obtain ⟨replaced, _, hreplace, hdone⟩ := Attempt.andThen_eq_ok.mp hrestore
    obtain ⟨rfl, -⟩ := Attempt.mk.inj hdone
    exact replace_of_file hresolve hentry hreplace

theorem restore_eq_error {error : StoreError} (hrestore : store.restore refusals path content = ⟨after, .error error⟩) :
    after = store := by
  unfold restore at hrestore
  split at hrestore
  · cases hrestore
  · obtain hreplace | ⟨_, _, -, hdone⟩ := Attempt.andThen_eq_error.mp hrestore
    · exact replace_eq_error hreplace
    · cases hdone

theorem restore_of_content (hreread : refusals.rereading = false) (hresolve : store.resolve? path = some location)
    (hentry : store.entry? location = some (.file content mode)) :
    store.restore refusals path content = ⟨store, .ok false⟩ := by
  have hget : store.get? path = some (.file content mode) := by
    simp [get?, hresolve, hentry]
  unfold restore
  rw [hget]
  exact if_pos (by simp [hreread, Entry.content?])

end Restoring

end GoGraft.Store
