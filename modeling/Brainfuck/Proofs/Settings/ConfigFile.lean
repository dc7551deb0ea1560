import Brainfuck.Settings.ConfigFile
import Brainfuck.Proofs.Text.Layout

/-!
# The theory of configuration files

What a configuration file asks for can be followed in three steps, and for each of them there is a
law about texts that are put together: the lines say what they say one by one, the entries that
count are found section by section, and a field takes its value from the last entry with its key.

## Fields

The four fields of the settings are read from the entries in the same way. They differ in their key,
in how a value is read, and in the value that holds where nothing is said. So a field is made a
thing of its own here, and what holds for the settings is said once for every field.
-/

namespace Brainfuck

/-! ## Fields -/

namespace Settings

/-- The fields of the settings. -/
inductive Field where
  | delay
  | input
  | output
  | policy
deriving DecidableEq, Repr

namespace Field

/-- What a field holds. -/
abbrev Value : Field → Type
  | delay => Option UInt64
  | input => Bool
  | output => Bool
  | policy => FailurePolicy

/-- The key of the entries for a field. -/
def key : Field → List Char
  | delay => "delay_ms".toList
  | input => "input".toList
  | output => "output".toList
  | policy => "io_policy".toList

/-- What a field holds where nothing is said. -/
def standard : (f : Field) → f.Value
  | delay => none
  | input => true
  | output => true
  | policy => .standard

/-- Read a value for a field. -/
def read? : (f : Field) → List Char → Option f.Value
  | delay, cs => (delay? cs).map some
  | input, cs => truth? cs
  | output, cs => truth? cs
  | policy, cs => policy? cs

/-- What a field holds if `value?` is the value of the last entry for it. -/
def ofValue (f : Field) (value? : Option (List Char)) : f.Value :=
  (value?.bind f.read?).getD f.standard

theorem key_injective {f g : Field} (h : f.key = g.key) : f = g := by
  revert h
  cases f <;> cases g <;> decide

/-- No key starts like a comment or a header. -/
theorem exists_head?_key (f : Field) : ∃ c, f.key.head? = some c ∧ c ≠ '#' ∧ c ≠ '[' := by
  cases f with
  | delay => exact ⟨'d', rfl, by decide⟩
  | input => exact ⟨'i', rfl, by decide⟩
  | output => exact ⟨'o', rfl, by decide⟩
  | policy => exact ⟨'i', rfl, by decide⟩

end Field

/-- What the settings have in a field. -/
def get (s : Settings) : (f : Field) → f.Value
  | .delay => s.delay
  | .input => s.input
  | .output => s.output
  | .policy => s.policy

theorem ext_get {s t : Settings} (h : ∀ f, s.get f = t.get f) : s = t := by
  obtain ⟨delay, input, output, policy⟩ := s
  obtain ⟨delay', input', output', policy'⟩ := t
  obtain rfl : delay = delay' := h .delay
  obtain rfl : input = input' := h .input
  obtain rfl : output = output' := h .output
  obtain rfl : policy = policy' := h .policy
  rfl

/-- All fields are read from the entries in the same way. -/
theorem get_ofEntries (entries : List (List Char × List Char)) (f : Field) :
    (ofEntries entries).get f = f.ofValue (ConfigFile.lastValue f.key entries) := by
  cases f with
  | delay =>
    have hdelay : ∀ v : Option (List Char),
        v.bind delay? = (v.bind fun cs ↦ (delay? cs).map some).getD none := by
      intro v
      cases v with
      | none => rfl
      | some cs => cases h : delay? cs <;> simp [h]
    exact hdelay _
  | input => rfl
  | output => rfl
  | policy => rfl

end Settings

namespace ConfigFile

open Text

/-! ## The last entry counts -/

theorem lastValue_append (key : List Char) (as bs : List (List Char × List Char)) :
    lastValue key (as ++ bs) = (lastValue key bs).or (lastValue key as) := by
  rw [lastValue, List.reverse_append, List.lookup_append]
  rfl

theorem lastValue_eq_none_iff {key : List Char} {entries : List (List Char × List Char)} :
    lastValue key entries = none ↔ ∀ v, (key, v) ∉ entries := by
  rw [lastValue, List.lookup_eq_none_iff]
  constructor
  · intro h v hv
    have := h _ (List.mem_reverse.2 hv)
    simp at this
  · rintro h ⟨k, v⟩ hkv
    rw [bne_iff_ne]
    rintro rfl
    exact h v (List.mem_reverse.1 hkv)

theorem mem_of_lastValue {key value : List Char} {entries : List (List Char × List Char)}
    (h : lastValue key entries = some value) : (key, value) ∈ entries := by
  obtain ⟨as, bs, heq, -⟩ := List.lookup_eq_some_iff.1 h
  rw [← List.mem_reverse, heq]
  exact List.mem_append_right _ List.mem_cons_self

theorem lastValue_cons (key k v : List Char) (bs : List (List Char × List Char)) :
    lastValue key ((k, v) :: bs) = (lastValue key bs).or (if key = k then some v else none) := by
  rw [← List.singleton_append, lastValue_append]
  congr 1
  by_cases h : key = k
  · subst h
    rw [if_pos rfl, lastValue, List.reverse_singleton, List.lookup_cons_self]
  · rw [if_neg h, lastValue_eq_none_iff]
    rintro w hw
    exact h (Prod.mk.inj (List.mem_singleton.1 hw)).1

/-- One more entry matters for its own key only, and there only if no other follows. -/
theorem lastValue_insert (key k v : List Char) (as bs : List (List Char × List Char)) :
    lastValue key (as ++ (k, v) :: bs) =
      if key = k then (lastValue key bs).or (some v) else lastValue key (as ++ bs) := by
  rw [lastValue_append, lastValue_cons, lastValue_append]
  split
  · rw [Option.or_assoc, Option.some_or]
  · rw [Option.or_none]

/-! ## What a line means -/

/-- What a line means, with or without blanks around it. -/
def meaning (l : List Char) : Line := Line.ofTrimmed (trim l)

theorem parse_eq (cs : List Char) : parse cs = (lines cs).map meaning := rfl

theorem parse_append (as bs : List Char) : parse (as ++ '\n' :: bs) = parse as ++ parse bs := by
  rw [parse_eq, lines, fields_append, List.map_append]
  rfl

theorem parse_of_not_mem {l : List Char} (h : '\n' ∉ l) : parse l = [meaning l] := by
  rw [parse_eq, lines, fields_of_not_mem h, List.map_singleton]

theorem meaning_of_idle {l : List Char} (h : trim l = [] ∨ (trim l).head? = some '#') :
    meaning l = .idle := by
  rw [meaning, Line.ofTrimmed, if_pos h]

section

variable {l key value : List Char}

theorem keyValue?_trim (h : '=' ∉ key) (value : List Char) :
    keyValue? (trim (key ++ '=' :: value)) = some (trim key, unquote (trim value)) := by
  have hkey : '=' ∉ trimLeft key := fun hmem ↦ h ((List.dropWhile_suffix isBlank).subset hmem)
  rw [trim_append_cons (by decide), keyValue?, cutAt_append hkey, Option.map_some]
  simp only [trim_trimLeft, trim_trimRight]

theorem keyValue?_trim_eq_none (h : '=' ∉ l) : keyValue? (trim l) = none := by
  rw [keyValue?, cutAt_eq_none fun hmem ↦ h (mem_of_mem_trim hmem), Option.map_none]

/-- A line without `=` that is not a header says nothing. -/
theorem meaning_of_not_mem (hheader : sectionName? (trim l) = none) (h : '=' ∉ l) :
    meaning l = .idle := by
  rw [meaning, Line.ofTrimmed, hheader, keyValue?_trim_eq_none h]
  exact ite_self _

/-- A line is cut at its first `=`, unless it is a header or a comment. -/
theorem meaning_of_eq (hl : l = key ++ '=' :: value) (h : '=' ∉ key)
    (hheader : sectionName? (trim l) = none) (hcomment : (trim l).head? ≠ some '#') :
    meaning l = .entry (trim key) (unquote (trim value)) := by
  have hne : trim l ≠ [] := by
    rw [hl, trim_append_cons (by decide)]
    exact List.append_ne_nil_of_right_ne_nil _ (List.cons_ne_nil _ _)
  rw [meaning, Line.ofTrimmed, hheader, if_neg (not_or.2 ⟨hne, hcomment⟩), hl, keyValue?_trim h]

/-- A line that is not a header says nothing, or is an entry. -/
theorem meaning_cases (hheader : sectionName? (trim l) = none) :
    meaning l = .idle ∨ ∃ key value, l = key ++ '=' :: value ∧ '=' ∉ key ∧
      meaning l = .entry (trim key) (unquote (trim value)) := by
  by_cases hcomment : (trim l).head? = some '#'
  · exact Or.inl (meaning_of_idle (Or.inr hcomment))
  · by_cases hmem : '=' ∈ l
    · obtain ⟨key, value, hl, hkey⟩ := List.eq_append_cons_of_mem hmem
      exact Or.inr ⟨key, value, hl, hkey, meaning_of_eq hl hkey hheader hcomment⟩
    · exact Or.inl (meaning_of_not_mem hheader hmem)

/-- A line that starts like a key is no header and no comment. -/
theorem meaning_of_head {c : Char} (hl : l = key ++ '=' :: value) (h : '=' ∉ key)
    (hhead : (trim key).head? = some c) (hc : c ≠ '#' ∧ c ≠ '[') :
    meaning l = .entry (trim key) (unquote (trim value)) := by
  have hfirst : (trim l).head? = some c := by
    rw [hl]
    exact head?_trim_append_cons (by decide) hhead value
  refine meaning_of_eq hl h ?_ ?_
  · obtain ⟨rest, hrest⟩ : ∃ rest, trim l = c :: rest := by
      cases htrim : trim l with
      | nil => rw [htrim] at hfirst; cases hfirst
      | cons d rest =>
        rw [htrim] at hfirst
        exact ⟨rest, by rw [Option.some.inj hfirst]⟩
    rw [hrest, sectionName?, dropFirst?, if_neg hc.2]
    rfl
  · rw [hfirst]
    exact fun h ↦ hc.1 (Option.some.inj h)

end

/-! ## Sections -/

/-- The line opens a section with this name. -/
def Opens (name l : List Char) : Prop :=
  ∃ inner, trim l = '[' :: (inner ++ [']']) ∧ trim inner = name

theorem sectionName?_eq_some_iff {cs name : List Char} :
    sectionName? cs = some name ↔ ∃ inner, cs = '[' :: (inner ++ [']']) ∧ trim inner = name := by
  rw [sectionName?, Option.map_eq_some_iff]
  refine exists_congr fun inner ↦ and_congr_left fun _ ↦ ?_
  rw [Option.bind_eq_some_iff]
  constructor
  · rintro ⟨rest, hrest, hinner⟩
    rw [dropFirst?_eq_some_iff.1 hrest, dropLast?_eq_some_iff.1 hinner]
  · rintro rfl
    exact ⟨_, dropFirst?_eq_some_iff.2 rfl, dropLast?_eq_some_iff.2 rfl⟩

theorem meaning_eq_header_iff {l name : List Char} : meaning l = .header name ↔ Opens name l := by
  rw [Opens, ← sectionName?_eq_some_iff, meaning]
  generalize trim l = cs
  constructor
  · intro h
    rw [Line.ofTrimmed] at h
    split at h
    · simp at h
    · split at h
      · next n hn => rw [hn, Line.header.inj h]
      · split at h <;> simp at h
  · intro h
    obtain ⟨inner, rfl, -⟩ := sectionName?_eq_some_iff.1 h
    rw [Line.ofTrimmed, if_neg (by simp), h]

instance (name l : List Char) : Decidable (Opens name l) := decidable_of_iff _ meaning_eq_header_iff

/-- The name in a header. -/
def Line.name? : Line → Option (List Char)
  | header name => some name
  | entry _ _ => none
  | idle => none

/-- The name in the last header. -/
def lastHeader? (ls : List Line) : Option (List Char) := (ls.filterMap Line.name?).getLast?

/-- Whether a section with the name `name` is open behind some lines, if `inside` says so for the
place in front of them. -/
def isOpen (name : List Char) (inside : Bool) (ls : List Line) : Bool :=
  ((lastHeader? ls).map (decide <| · = name)).getD inside

theorem isOpen_header (name n : List Char) (inside : Bool) (ls : List Line) :
    isOpen name inside (.header n :: ls) = isOpen name (n = name) ls := by
  rw [isOpen, lastHeader?, List.filterMap_cons, Line.name?, List.getLast?_cons]
  cases h : (ls.filterMap Line.name?).getLast? with
  | none => simp [isOpen, lastHeader?, h]
  | some n' => simp [isOpen, lastHeader?, h]

theorem isOpen_entry (name key value : List Char) (inside : Bool) (ls : List Line) :
    isOpen name inside (.entry key value :: ls) = isOpen name inside ls := rfl

theorem isOpen_idle (name : List Char) (inside : Bool) (ls : List Line) :
    isOpen name inside (.idle :: ls) = isOpen name inside ls := rfl

theorem isOpen_false_iff {name : List Char} {ls : List Line} :
    isOpen name false ls = true ↔ lastHeader? ls = some name := by
  rw [isOpen]
  cases lastHeader? ls with
  | none => simp
  | some n => simp

/-- The entries of two rows of lines are those of the one and then those of the other, where the
first row decides in which section the second begins. -/
theorem entriesOf_append (name : List Char) (inside : Bool) (ls ms : List Line) :
    entriesOf name inside (ls ++ ms) =
      entriesOf name inside ls ++ entriesOf name (isOpen name inside ls) ms := by
  induction ls generalizing inside with
  | nil => rfl
  | cons l ls ih =>
    cases l with
    | header n =>
      rw [List.cons_append, entriesOf, entriesOf, ih, isOpen_header]
    | entry key value =>
      rw [List.cons_append, entriesOf, entriesOf, ih, isOpen_entry]
      split
      · rw [List.cons_append]
      · rfl
    | idle => rw [List.cons_append, entriesOf, entriesOf, ih, isOpen_idle]

/-- An entry counts exactly if the last header in front of it has the right name. -/
theorem mem_entriesOf_iff {name key value : List Char} {inside : Bool} {ls : List Line} :
    (key, value) ∈ entriesOf name inside ls ↔
      ∃ before after, ls = before ++ .entry key value :: after ∧
        isOpen name inside before = true := by
  constructor
  · intro h
    induction ls generalizing inside with
    | nil => exact absurd h List.not_mem_nil
    | cons l ls ih =>
      cases l with
      | header n =>
        have h : (key, value) ∈ entriesOf name (n = name) ls := h
        obtain ⟨before, after, rfl, hopen⟩ := ih h
        exact ⟨.header n :: before, after, rfl, by rw [isOpen_header, hopen]⟩
      | idle =>
        have h : (key, value) ∈ entriesOf name inside ls := h
        obtain ⟨before, after, rfl, hopen⟩ := ih h
        exact ⟨.idle :: before, after, rfl, by rw [isOpen_idle, hopen]⟩
      | entry k v =>
        have hrest : (key, value) ∈ entriesOf name inside ls →
            ∃ before after, Line.entry k v :: ls = before ++ .entry key value :: after ∧
              isOpen name inside before = true := by
          intro h
          obtain ⟨before, after, rfl, hopen⟩ := ih h
          exact ⟨.entry k v :: before, after, rfl, by rw [isOpen_entry, hopen]⟩
        rw [entriesOf] at h
        split at h
        · next hinside =>
          rcases List.mem_cons.1 h with heq | h
          · obtain ⟨rfl, rfl⟩ := Prod.mk.inj heq
            exact ⟨[], ls, rfl, hinside⟩
          · exact hrest h
        · exact hrest h
  · rintro ⟨before, after, rfl, hopen⟩
    rw [entriesOf_append, hopen, entriesOf, if_pos rfl]
    exact List.mem_append_right _ List.mem_cons_self

theorem runEntries_append (as bs : List Char) :
    runEntries (as ++ '\n' :: bs) =
      runEntries as ++ entriesOf runSection (isOpen runSection false (parse as)) (parse bs) := by
  rw [runEntries, parse_append, entriesOf_append]
  rfl

end ConfigFile

end Brainfuck
