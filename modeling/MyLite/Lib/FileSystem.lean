import Mathlib.Data.List.Basic

namespace MyLite.Lib

open List

/-!
# A file system as a map of locations

A location is the list of names that lead to it, the innermost first, so that the tail of a
location is its parent and its suffixes are its ancestors.  The root is a directory and cannot be
anything else.  Links are followed: a link to something is what it points to.

* `FileSystem` — what the locations hold; only directories have something beneath them.
* `put`, `createDirectory`, `createDirectories`, `writeFile`, `createFile` — the operations that
  change it.
* `Extends` — everything that was there is still there, and is the same.
* `createDirectories_eq_some` — which directories are made, and that nothing else changes.
* `removeAll`, `removeContents`, `edit` — what is removed, and changes beneath a directory.
-/

/-- What an entry is, with links followed. -/
inductive Node (Content : Type*)
  /-- A regular file. -/
  | file (content : Content)
  | directory
  /-- Neither a regular file nor a directory. -/
  | special
  /-- A link to nothing: it is listed in its directory, and nothing exists behind it. -/
  | dangling
  deriving DecidableEq, Repr

/-- The names that lead to a place, the innermost first. -/
abbrev Location (Name : Type*) := List Name

variable {Name Content : Type*}

/-- `l` lies in the directory at `base`, at any depth. -/
def Beneath (base l : Location Name) : Prop := base <:+ l ∧ l ≠ base

instance [DecidableEq Name] (base l : Location Name) : Decidable (Beneath base l) :=
  inferInstanceAs (Decidable (_ ∧ _))

variable {base : Location Name}

theorem Beneath.cons {l : Location Name} (h : Beneath base l) (name : Name) :
    Beneath base (name :: l) := by
  obtain ⟨hsuffix, hne⟩ := h
  refine ⟨hsuffix.trans (suffix_cons name l), ?_⟩
  rintro rfl
  exact hne (suffix_cons name l |>.eq_of_length_le hsuffix.length_le)

theorem beneath_append {rel : Location Name} (h : rel ≠ []) : Beneath base (rel ++ base) := by
  refine ⟨suffix_append rel base, fun heq => h ?_⟩
  have hlength := congrArg List.length heq
  rw [length_append] at hlength
  exact length_eq_zero_iff.mp (by omega)

theorem Beneath.of_suffix {l l' : Location Name} (h : Beneath base l) (hl : l <:+ l') :
    Beneath base l' := by
  refine ⟨h.1.trans hl, ?_⟩
  rintro rfl
  exact h.2 (hl.eq_of_length_le h.1.length_le)

variable [DecidableEq Name]

/-- What a list of entries has at a location. -/
def lookupIn (entries : List (Location Name × Node Content)) :
    Location Name → Option (Node Content)
  | [] => some .directory
  | name :: loc => entries.lookup (name :: loc)

/-- A file system: what is somewhere is in a directory. -/
structure FileSystem (Name Content : Type*) [DecidableEq Name] where
  entries : List (Location Name × Node Content)
  closed : ∀ name loc, (lookupIn entries (name :: loc)).isSome →
    lookupIn entries loc = some .directory

namespace FileSystem

/-- Nothing but the root. -/
def empty : FileSystem Name Content := ⟨[], nofun⟩

variable (fs : FileSystem Name Content) (loc : Location Name)

/-! ### Looking -/

/-- What is at a location. -/
def lookup : Option (Node Content) := lookupIn fs.entries loc

/-- `std::filesystem::exists`. -/
def existsAt : Bool :=
  match fs.lookup loc with
  | none | some .dangling => false
  | some _ => true

/-- `std::filesystem::is_directory`. -/
def isDirectory : Bool :=
  match fs.lookup loc with
  | some .directory => true
  | _ => false

/-- `std::filesystem::is_regular_file`. -/
def isRegularFile : Bool :=
  match fs.lookup loc with
  | some (.file _) => true
  | _ => false

/-- A directory iterator is at its end at once. -/
def isEmpty : Bool :=
  fs.entries.all fun entry =>
    match entry.1 with
    | [] => true
    | _ :: parent => parent ≠ loc

variable {fs loc}

variable {name : Name} {node : Node Content} {l : Location Name}

theorem lookup_parent (h : fs.lookup (name :: loc) = some node) : fs.lookup loc = some .directory :=
  fs.closed name loc (by rw [← lookup, h]; rfl)

/-- The ancestors of a directory are directories. -/
theorem lookup_of_suffix (h : fs.lookup loc = some .directory) (hl : l <:+ loc) :
    fs.lookup l = some .directory := by
  induction loc with
  | nil =>
    rw [suffix_nil.mp hl]
    rfl
  | cons name loc ih =>
    rcases suffix_cons_iff.mp hl with rfl | hl
    · exact h
    · exact ih (lookup_parent h) hl

theorem isDirectory_iff : fs.isDirectory loc = true ↔ fs.lookup loc = some .directory := by
  rw [isDirectory]
  split
  · next h => exact ⟨fun _ => h, fun _ => rfl⟩
  · next h => exact ⟨nofun, fun heq => absurd heq h⟩

theorem isRegularFile_iff :
    fs.isRegularFile loc = true ↔ ∃ content, fs.lookup loc = some (.file content) := by
  rw [isRegularFile]
  split
  · next content h => exact ⟨fun _ => ⟨content, h⟩, fun _ => rfl⟩
  · next h => exact ⟨nofun, fun ⟨content, heq⟩ => absurd heq (h content)⟩

theorem existsAt_iff : fs.existsAt loc = true ↔
    ∃ node, fs.lookup loc = some node ∧ node ≠ .dangling := by
  rw [existsAt]
  split
  · next h =>
    rw [h]
    exact ⟨nofun, fun ⟨_, hnode, _⟩ => (nomatch hnode)⟩
  · next h =>
    rw [h]
    exact ⟨nofun,
      fun ⟨_, hnode, hne⟩ => absurd (Option.some.inj hnode).symm hne⟩
  · next node hne h => exact ⟨fun _ => ⟨node, h, hne⟩, fun _ => rfl⟩

theorem existsAt_of_lookup (h : fs.lookup loc = some node) (hne : node ≠ .dangling) :
    fs.existsAt loc = true :=
  existsAt_iff.mpr ⟨node, h, hne⟩

/-- An empty directory has nothing beneath it. -/
theorem isEmpty_iff : fs.isEmpty loc = true ↔ ∀ name, fs.lookup (name :: loc) = none := by
  rw [isEmpty, all_eq_true]
  constructor
  · intro h name
    rw [lookup, lookupIn, lookup_eq_none_iff]
    rintro ⟨l, node⟩ hmem
    have hentry := h (l, node) hmem
    cases l with
    | nil => simp
    | cons _ parent =>
      have hparent : parent ≠ loc := of_decide_eq_true hentry
      rw [bne_iff_ne]
      exact fun heq => hparent (List.cons.inj heq).2.symm
  · rintro h ⟨l, node⟩ hmem
    cases l with
    | nil => rfl
    | cons name parent =>
      apply decide_eq_true
      rintro rfl
      have hnone := lookup_eq_none_iff.mp (h name) (name :: parent, node) hmem
      simp at hnone

/-! ### Changing -/

/-- Put `node` where nothing or no directory is. -/
def put (fs : FileSystem Name Content) (name : Name) (loc : Location Name) (node : Node Content)
    (hparent : fs.lookup loc = some .directory)
    (hold : fs.lookup (name :: loc) ≠ some .directory) : FileSystem Name Content where
  entries := (name :: loc, node) :: fs.entries
  closed := by
    intro other parent hsome
    have hkeep : ∀ l, fs.lookup l = some .directory →
        lookupIn ((name :: loc, node) :: fs.entries) l = some .directory := by
      intro l hl
      cases l with
      | nil => rfl
      | cons x xs =>
        have hne : x :: xs ≠ name :: loc := fun heq => hold (heq ▸ hl)
        rw [lookupIn, lookup_cons, beq_false_of_ne hne]
        exact hl
    by_cases heq : other :: parent = name :: loc
    · rw [(List.cons.inj heq).2]
      exact hkeep loc hparent
    · rw [lookupIn, lookup_cons, beq_false_of_ne heq] at hsome
      exact hkeep parent (fs.closed other parent hsome)

theorem lookup_put_self (hparent : fs.lookup loc = some .directory)
    (hold : fs.lookup (name :: loc) ≠ some .directory) :
    (fs.put name loc node hparent hold).lookup (name :: loc) = some node := by
  rw [lookup, lookupIn, put, lookup_cons_self]

theorem lookup_put_of_ne (hparent : fs.lookup loc = some .directory)
    (hold : fs.lookup (name :: loc) ≠ some .directory) (hne : l ≠ name :: loc) :
    (fs.put name loc node hparent hold).lookup l = fs.lookup l := by
  cases l with
  | nil => rfl
  | cons x xs => rw [lookup, lookupIn, put, lookup_cons, beq_false_of_ne hne]; rfl

/-- `std::filesystem::create_directory`: an existing directory is no error. -/
def createDirectory [DecidableEq Content] (fs : FileSystem Name Content) :
    Location Name → Option (FileSystem Name Content)
  | [] => some fs
  | name :: loc =>
    if fs.lookup (name :: loc) = some .directory then some fs
    else if h : fs.lookup loc = some .directory ∧ fs.lookup (name :: loc) = none then
      some (fs.put name loc .directory h.1 (by rw [h.2]; exact nofun))
    else none

/-- `std::filesystem::create_directories`. -/
def createDirectories [DecidableEq Content] (fs : FileSystem Name Content) :
    Location Name → Option (FileSystem Name Content)
  | [] => some fs
  | name :: loc =>
    match fs.lookup (name :: loc) with
    | some .directory => some fs
    | some _ => none
    | none =>
      match fs.createDirectories loc with
      | some made => made.createDirectory (name :: loc)
      | none => none

/-- `std::filesystem::create_directories` where the system may refuse to go on: with `some depth`,
    the innermost `depth + 1` directories are not made. -/
def tryCreateDirectories [DecidableEq Content] (fs : FileSystem Name Content)
    (loc : Location Name) :
    Option ℕ → Bool × FileSystem Name Content
  | none =>
    match fs.createDirectories loc with
    | some made => (true, made)
    | none => (false, fs)
  | some depth => (false, (fs.createDirectories (loc.drop (depth + 1))).getD fs)

/-- Create or truncate a regular file and write its content. -/
def writeFile (fs : FileSystem Name Content) (content : Content) :
    Location Name → Option (FileSystem Name Content)
  | [] => none
  | name :: loc =>
    if h : fs.isDirectory loc = true ∧
        (fs.isRegularFile (name :: loc) = true ∨ fs.lookup (name :: loc) = none) then
      some (fs.put name loc (.file content) (isDirectory_iff.mp h.1) (by
        rcases h.2 with hfile | hnone
        · obtain ⟨old, hold⟩ := isRegularFile_iff.mp hfile
          rw [hold]
          exact nofun
        · rw [hnone]
          exact nofun))
    else none

/-- `open` with `O_CREAT`: an existing file is left as it is. -/
def createFile (fs : FileSystem Name Content) (content : Content) (loc : Location Name) :
    Option (FileSystem Name Content) :=
  if fs.isRegularFile loc then some fs else fs.writeFile content loc

/-! ### What stays -/

/-- Everything that was there is still there, and is the same. -/
def Extends (fs fs' : FileSystem Name Content) : Prop :=
  ∀ loc node, fs.lookup loc = some node → fs'.lookup loc = some node

theorem Extends.refl (fs : FileSystem Name Content) : Extends fs fs := fun _ _ h => h

theorem Extends.trans {fs' fs'' : FileSystem Name Content} (h : Extends fs fs')
    (h' : Extends fs' fs'') : Extends fs fs'' := fun loc node hl => h' loc node (h loc node hl)

theorem extends_put (hparent : fs.lookup loc = some .directory)
    (hnew : fs.lookup (name :: loc) = none) :
    Extends fs (fs.put name loc node hparent (by rw [hnew]; exact nofun)) := by
  intro l old hl
  have hne : l ≠ name :: loc := by
    rintro rfl
    rw [hnew] at hl
    cases hl
  rw [lookup_put_of_ne hparent _ hne]
  exact hl

/-- The file systems agree on every location that is not `loc`. -/
def SameExcept (loc : Location Name) (fs fs' : FileSystem Name Content) : Prop :=
  ∀ l, l ≠ loc → fs'.lookup l = fs.lookup l

section Creating

variable [DecidableEq Content] {made : FileSystem Name Content}

/-- A directory that is made is there, what was there stays, and nothing else appears. -/
theorem createDirectory_eq_some (h : fs.createDirectory loc = some made) :
    made.lookup loc = some .directory ∧ Extends fs made ∧ SameExcept loc fs made := by
  cases loc with
  | nil =>
    cases h
    exact ⟨rfl, Extends.refl fs, fun _ _ => rfl⟩
  | cons name loc =>
    rw [createDirectory] at h
    split at h
    · next hdir =>
      cases h
      exact ⟨hdir, Extends.refl fs, fun _ _ => rfl⟩
    · split at h
      · next hnew =>
        cases h
        exact ⟨lookup_put_self hnew.1 _, extends_put hnew.1 hnew.2,
          fun l hl => lookup_put_of_ne hnew.1 _ hl⟩
      · cases h

/-- Making a directory fails at anything else that is in its place. -/
theorem createDirectory_isSome (hparent : fs.lookup loc = some .directory)
    (hold : fs.lookup (name :: loc) = none ∨ fs.lookup (name :: loc) = some .directory) :
    ∃ made, fs.createDirectory (name :: loc) = some made := by
  rw [createDirectory]
  rcases hold with hnone | hdir
  · rw [if_neg (by rw [hnone]; exact nofun), dif_pos ⟨hparent, hnone⟩]
    exact ⟨_, rfl⟩
  · rw [if_pos hdir]
    exact ⟨fs, rfl⟩

/-- **Directories are made down to `loc`.** They are there, what was there stays, and nothing but
    the location and its ancestors appears. -/
theorem createDirectories_eq_some (h : fs.createDirectories loc = some made) :
    made.lookup loc = some .directory ∧ Extends fs made ∧
      ∀ l, ¬l <:+ loc → made.lookup l = fs.lookup l := by
  induction loc generalizing made with
  | nil =>
    cases h
    exact ⟨rfl, Extends.refl fs, fun _ _ => rfl⟩
  | cons name loc ih =>
    rw [createDirectories] at h
    split at h
    · next hdir =>
      cases h
      exact ⟨hdir, Extends.refl fs, fun _ _ => rfl⟩
    · cases h
    · split at h
      · next above habove =>
        obtain ⟨-, hext, hframe⟩ := ih habove
        obtain ⟨hdir, hext', hframe'⟩ := createDirectory_eq_some h
        refine ⟨hdir, hext.trans hext', fun l hl => ?_⟩
        have hne : l ≠ name :: loc := fun heq => hl (heq ▸ suffix_refl _)
        have hsuffix : ¬l <:+ loc := fun hs => hl (hs.trans (suffix_cons name loc))
        rw [hframe' l hne, hframe l hsuffix]
      · cases h

/-- In a directory, nothing but the place itself is made. -/
theorem sameExcept_createDirectories (hloc : fs.lookup loc = some .directory)
    (h : fs.createDirectories (name :: loc) = some made) : SameExcept (name :: loc) fs made := by
  obtain ⟨-, hext, hframe⟩ := createDirectories_eq_some h
  intro l hl
  by_cases hs : l <:+ loc
  · -- The ancestors were there.
    have hdir := lookup_of_suffix hloc hs
    rw [hdir]
    exact hext _ _ hdir
  · refine hframe l fun hs' => ?_
    rcases suffix_cons_iff.mp hs' with heq | hs'
    · exact hl heq
    · exact hs hs'

theorem createDirectories_of_try {fault : Option ℕ}
    (h : fs.tryCreateDirectories loc fault = (true, made)) :
    fs.createDirectories loc = some made := by
  unfold tryCreateDirectories at h
  split at h
  · split at h
    · next made' hmade => rw [hmade, (Prod.mk.inj h).2]
    · cases h
  · cases h

/-- An attempt leaves what was there. -/
theorem extends_of_try {fault : Option ℕ} {ok : Bool}
    (h : fs.tryCreateDirectories loc fault = (ok, made)) : Extends fs made := by
  have hgetD : ∀ l, Extends fs ((fs.createDirectories l).getD fs) := by
    intro l
    cases hmade : fs.createDirectories l with
    | none => exact Extends.refl fs
    | some made => exact (createDirectories_eq_some hmade).2.1
  cases fault with
  | none =>
    have heq : made = (fs.createDirectories loc).getD fs := by
      unfold tryCreateDirectories at h
      cases hmade : fs.createDirectories loc with
      | none | some made' =>
        rw [hmade] at h
        exact (Prod.mk.inj h).2.symm
    rw [heq]
    exact hgetD loc
  | some depth =>
    rw [← (Prod.mk.inj h).2]
    exact hgetD _

/-- Directories can be made down to `loc` unless something else is in the way. -/
theorem createDirectories_isSome_iff : (fs.createDirectories loc).isSome ↔
    ∀ l, l <:+ loc → fs.lookup l = none ∨ fs.lookup l = some .directory := by
  induction loc with
  | nil =>
    refine ⟨fun _ l hl => ?_, fun _ => rfl⟩
    rw [suffix_nil.mp hl]
    exact .inr rfl
  | cons name loc ih =>
    rw [createDirectories]
    split
    · next hdir => exact ⟨fun _ l hl => .inr (lookup_of_suffix hdir hl), fun _ => rfl⟩
    · next node hne hnode =>
      refine ⟨nofun, fun h => ?_⟩
      rcases h _ (suffix_refl _) with hnone | hdir
      · rw [hnode] at hnone
        cases hnone
      · rw [hnode] at hdir
        exact absurd (Option.some.inj hdir) hne
    · next hnone =>
      cases hmade : fs.createDirectories loc with
      | none =>
        rw [hmade] at ih
        refine ⟨nofun, fun h => ?_⟩
        exact absurd (ih.mpr fun l hl => h l (hl.trans (suffix_cons name loc)))
          (by exact nofun)
      | some above =>
        rw [hmade] at ih
        obtain ⟨hdir, -, hframe⟩ := createDirectories_eq_some hmade
        have hplace : above.lookup (name :: loc) = none := by
          rw [hframe (name :: loc) fun hs => absurd hs.length_le (by simp), hnone]
        obtain ⟨made, hmk⟩ := createDirectory_isSome hdir (.inl hplace)
        refine ⟨fun _ l hl => ?_, fun _ => ?_⟩
        · rcases suffix_cons_iff.mp hl with rfl | hl
          · exact .inl hnone
          · exact ih.mp rfl l hl
        · show (above.createDirectory (name :: loc)).isSome
          rw [hmk]
          rfl

theorem createDirectories_of_directory (h : fs.lookup loc = some .directory) :
    fs.createDirectories loc = some fs := by
  cases loc with
  | nil => rfl
  | cons name loc => rw [createDirectories, h]

/-- **Made in steps.** It makes no difference if a place on the way is made first. -/
theorem createDirectories_of_suffix (hmade : fs.createDirectories l = some made) (hl : l <:+ loc) :
    made.createDirectories loc = fs.createDirectories loc := by
  by_cases hold : fs.lookup l = some .directory
  · rw [createDirectories_of_directory hold] at hmade
    rw [Option.some.inj hmade]
  obtain ⟨hdir, -, hframe⟩ := createDirectories_eq_some hmade
  induction loc with
  | nil =>
    rw [suffix_nil.mp hl] at hold
    exact absurd rfl hold
  | cons name loc ih =>
    rcases suffix_cons_iff.mp hl with rfl | hl
    · rw [hmade, createDirectories_of_directory hdir]
    · have hsame : made.lookup (name :: loc) = fs.lookup (name :: loc) :=
        hframe _ fun hs => absurd (hs.trans hl).length_le (by simp)
      rw [createDirectories, createDirectories, hsame, ih hl]
      split
      · next hbelow => exact absurd (lookup_of_suffix (lookup_parent hbelow) hl) hold
      · rfl
      · rfl

/-- If the place itself cannot be made, nothing was missing on the way. -/
theorem eq_of_createDirectories_none (hmade : fs.createDirectories l = some made) (hl : l <:+ loc)
    (hnone : fs.createDirectories loc = none) : made = fs := by
  have hclear : ∀ p, p <:+ l → fs.lookup p = none ∨ fs.lookup p = some .directory :=
    createDirectories_isSome_iff.mp (by rw [hmade]; rfl)
  obtain ⟨p, hp, hway⟩ : ∃ p, p <:+ loc ∧ ¬(fs.lookup p = none ∨
      fs.lookup p = some .directory) := by
    by_contra hall
    have hsome : (fs.createDirectories loc).isSome :=
      createDirectories_isSome_iff.mpr fun p hp => not_not.mp fun hway => hall ⟨p, hp, hway⟩
    rw [hnone] at hsome
    cases hsome
  rw [not_or] at hway
  obtain ⟨node, hnode⟩ := Option.ne_none_iff_exists'.mp hway.1
  -- What is in the way lies beneath `l`, so `l` is a directory.
  have hdir : fs.lookup l = some .directory := by
    cases p with
    | nil => exact absurd rfl hway.2
    | cons name p =>
      rcases suffix_or_suffix_of_suffix hl hp with hlp | hpl
      · rcases suffix_cons_iff.mp hlp with rfl | hlp
        · exact (hclear _ (suffix_refl _)).resolve_left hway.1
        · exact lookup_of_suffix (lookup_parent hnode) hlp
      · exact absurd (hclear _ hpl) (not_or.mpr hway)
  rw [createDirectories_of_directory hdir] at hmade
  exact (Option.some.inj hmade).symm

end Creating

variable {content : Content}

/-- A file that is written is there with its content, and nothing else changes. -/
theorem writeFile_eq_some {written : FileSystem Name Content}
    (h : fs.writeFile content loc = some written) :
    written.lookup loc = some (.file content) ∧ SameExcept loc fs written := by
  cases loc with
  | nil => cases h
  | cons name loc =>
    rw [writeFile] at h
    split at h
    · cases h
      exact ⟨lookup_put_self _ _, fun l hl => lookup_put_of_ne _ _ hl⟩
    · cases h

/-- A file can be written over a file or where nothing is. -/
theorem writeFile_isSome (hparent : fs.lookup loc = some .directory)
    (hold : fs.isRegularFile (name :: loc) = true ∨ fs.lookup (name :: loc) = none) :
    ∃ written, fs.writeFile content (name :: loc) = some written := by
  rw [writeFile, dif_pos ⟨isDirectory_iff.mpr hparent, hold⟩]
  exact ⟨_, rfl⟩

/-- A file system that differs in a place where nothing was has kept everything. -/
theorem SameExcept.extends {fs' : FileSystem Name Content} (h : SameExcept loc fs fs')
    (hnew : fs.lookup loc = none) : Extends fs fs' := by
  intro l node hl
  have hne : l ≠ loc := by
    rintro rfl
    rw [hnew] at hl
    cases hl
  rw [h l hne]
  exact hl

/-- A file that was not there is created with its content; nothing that was there changes. -/
theorem createFile_eq_some {created : FileSystem Name Content}
    (h : fs.createFile content loc = some created) :
    created.isRegularFile loc = true ∧ Extends fs created ∧ SameExcept loc fs created := by
  rw [createFile] at h
  split at h
  · next hfile =>
    cases h
    exact ⟨hfile, Extends.refl fs, fun _ _ => rfl⟩
  · next hfile =>
    obtain ⟨hwritten, hsame⟩ := writeFile_eq_some h
    refine ⟨isRegularFile_iff.mpr ⟨content, hwritten⟩, hsame.extends ?_, hsame⟩
    cases loc with
    | nil => cases h
    | cons name loc =>
      rw [writeFile] at h
      split at h
      · next hnew => exact hnew.2.resolve_left hfile
      · cases h

/-- A file can be opened where a file or nothing is. -/
theorem createFile_isSome (hparent : fs.lookup loc = some .directory)
    (hold : fs.isRegularFile (name :: loc) = true ∨ fs.lookup (name :: loc) = none) :
    ∃ created, fs.createFile content (name :: loc) = some created := by
  rw [createFile]
  split
  · exact ⟨fs, rfl⟩
  · next hfile => exact writeFile_isSome hparent hold

/-! ### Removing -/

theorem lookup_filter {K V : Type*} [BEq K] [LawfulBEq K] (keep : K → Bool) (entries : List (K × V))
    (key : K) :
    (entries.filter fun e => keep e.1).lookup key =
    if keep key then entries.lookup key else none := by
  induction entries with
  | nil => rw [filter_nil, lookup_nil, ite_self]
  | cons e entries ih =>
    obtain ⟨k, v⟩ := e
    rw [filter_cons]
    dsimp only
    by_cases hkey : key = k
    · subst hkey
      by_cases hkeep : keep key = true
      · rw [if_pos hkeep, if_pos hkeep, lookup_cons_self, lookup_cons_self]
      · rw [if_neg hkeep, ih, if_neg hkeep, if_neg hkeep]
    · have hne : (key == k) = false := beq_false_of_ne hkey
      rw [lookup_cons, hne, ← ih]
      by_cases hkeep : keep k = true
      · rw [if_pos hkeep, lookup_cons, hne]
      · rw [if_neg hkeep]

/-- Only what `keep` keeps, and that is kept with its parents. -/
def restrict (fs : FileSystem Name Content) (keep : Location Name → Bool)
    (hkeep : ∀ name loc, keep (name :: loc) = true → keep loc = true) :
    FileSystem Name Content where
  entries := fs.entries.filter fun e => keep e.1
  closed := by
    intro name loc hsome
    rw [lookupIn, lookup_filter] at hsome
    split_ifs at hsome with hkept
    · have hparent := fs.closed name loc hsome
      cases loc with
      | nil => rfl
      | cons parent loc =>
        rw [lookupIn, lookup_filter, if_pos (hkeep _ _ hkept)]
        exact hparent
    · cases hsome

theorem lookup_restrict {keep : Location Name → Bool}
    (hkeep : ∀ name loc, keep (name :: loc) = true → keep loc = true) (hl : l ≠ []) :
    (fs.restrict keep hkeep).lookup l = if keep l then fs.lookup l else none := by
  cases l with
  | nil => exact absurd rfl hl
  | cons name loc => exact lookup_filter keep fs.entries (name :: loc)

/-- `std::filesystem::remove_all`; the root stays. -/
def removeAll (fs : FileSystem Name Content) (loc : Location Name) : FileSystem Name Content :=
  fs.restrict (fun l => !decide (loc <:+ l)) (by
    intro name l h
    rw [Bool.not_eq_true', decide_eq_false_iff_not] at h ⊢
    exact fun hsuffix => h (hsuffix.trans (suffix_cons name l)))

/-- `std::filesystem::remove_all` on every entry of a directory. -/
def removeContents (fs : FileSystem Name Content) (loc : Location Name) : FileSystem Name Content :=
  fs.restrict (fun l => !decide (Beneath loc l)) (by
    intro name l h
    rw [Bool.not_eq_true', decide_eq_false_iff_not] at h ⊢
    exact fun hbeneath => h (hbeneath.cons name))

theorem lookup_removeAll_of_suffix (hloc : loc ≠ []) (hl : loc <:+ l) :
    (fs.removeAll loc).lookup l = none := by
  have hne : l ≠ [] := by
    rintro rfl
    exact hloc (suffix_nil.mp hl)
  rw [removeAll, lookup_restrict _ hne, if_neg (by simpa using hl)]

theorem lookup_removeAll (hl : ¬loc <:+ l) : (fs.removeAll loc).lookup l = fs.lookup l := by
  cases l with
  | nil => rfl
  | cons name l =>
    rw [removeAll, lookup_restrict _ (cons_ne_nil name l), if_pos (by simpa using hl)]

theorem lookup_removeContents_of_beneath (hl : Beneath loc l) :
    (fs.removeContents loc).lookup l = none := by
  have hne : l ≠ [] := by
    rintro rfl
    exact hl.2 (suffix_nil.mp hl.1).symm
  rw [removeContents, lookup_restrict _ hne, if_neg (by simpa using hl)]

theorem lookup_removeContents (hl : ¬Beneath loc l) :
    (fs.removeContents loc).lookup l = fs.lookup l := by
  cases l with
  | nil => rfl
  | cons name l =>
    rw [removeContents, lookup_restrict _ (cons_ne_nil name l), if_pos (by simpa using hl)]

/-! ### Work in a directory -/

/-- A change in a directory, at a place that is given relative to it. -/
inductive Edit (Name Content : Type*)
  | directory (rel : Location Name)
  | file (rel : Location Name) (content : Content)
  | remove (rel : Location Name)
  deriving DecidableEq, Repr

/-- The place of a change. -/
def Edit.rel : Edit Name Content → Location Name
  | .directory rel | .file rel _ | .remove rel => rel

section Editing

variable [DecidableEq Content]

/-- A change beneath `base`; what cannot be done is not done. -/
def edit (fs : FileSystem Name Content) (base : Location Name) (e : Edit Name Content) :
    FileSystem Name Content :=
  if e.rel = [] then fs
  else match e with
    | .directory rel => (fs.createDirectory (rel ++ base)).getD fs
    | .file rel content => (fs.writeFile content (rel ++ base)).getD fs
    | .remove rel => fs.removeAll (rel ++ base)

/-- **Frame.** A change beneath `base` is nowhere else. -/
theorem lookup_edit (hl : ¬Beneath base l) (e : Edit Name Content) :
    (fs.edit base e).lookup l = fs.lookup l := by
  unfold edit
  by_cases hrel : e.rel = []
  · rw [if_pos hrel]
  · rw [if_neg hrel]
    have hplace : Beneath base (e.rel ++ base) := beneath_append hrel
    have hne : l ≠ e.rel ++ base := fun heq => hl (heq ▸ hplace)
    cases e with
    | directory rel =>
      dsimp only
      cases hmade : fs.createDirectory (rel ++ base) with
      | none => rfl
      | some made => exact (createDirectory_eq_some hmade).2.2 l hne
    | file rel content =>
      dsimp only
      cases hwritten : fs.writeFile content (rel ++ base) with
      | none => rfl
      | some written => exact (writeFile_eq_some hwritten).2 l hne
    | remove rel => exact lookup_removeAll fun hsuffix => hl (hplace.of_suffix hsuffix)

/-- Changes in several directories. -/
def work (fs : FileSystem Name Content) (edits : List (Location Name × Edit Name Content)) :
    FileSystem Name Content :=
  edits.foldl (fun fs e => fs.edit e.1 e.2) fs

theorem lookup_work {edits : List (Location Name × Edit Name Content)}
    (hl : ∀ e ∈ edits, ¬Beneath e.1 l) : (fs.work edits).lookup l = fs.lookup l := by
  induction edits generalizing fs with
  | nil => rfl
  | cons e edits ih =>
    rw [work, foldl_cons, ← work, ih fun e' he' => hl e' (mem_cons_of_mem e he')]
    exact lookup_edit (hl e mem_cons_self) e.2

end Editing

end FileSystem

end MyLite.Lib
