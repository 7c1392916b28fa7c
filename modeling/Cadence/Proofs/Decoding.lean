import Cadence.Proofs.Pieces
import Cadence.Proofs.Records

/-!
# Fields of a record taken apart

What each field of an accepted record was read as, and records that differ in one field. The commands
of a task are the texts that the value under their key holds one after another, whatever kind of value
that is: a text holds its characters and a map its keys.
-/

namespace Cadence

open Document Validation

/-! ## One entry of a map -/

theorem Document.Value.sameKey_text_iff {v : Value} {s : String} :
    v.sameKey (.text s) = true ↔ v = .text s := by
  cases v <;> simp [sameKey, keyNumber?]

namespace Record

variable {r : Record} {t : Task} {key other : String} {v w : Value}

def put (r : Record) (key : String) (v : Value) : Record :=
  Value.insertEntry r (.text key) v

theorem lookup_cons (k : Value) : Value.lookup ((k, w) :: r) key =
    if k.sameKey (.text key) then some w else Value.lookup r key := by
  by_cases h : k.sameKey (.text key) <;> simp [Value.lookup, h]

@[simp] theorem lookup_put_self : Value.lookup (r.put key v) key = some v := by
  induction r with
  | nil => exact (lookup_cons (.text key)).trans (if_pos (Value.sameKey_text_iff.2 rfl))
  | cons e r ih =>
    obtain ⟨k, w⟩ := e
    rw [put, Value.insertEntry]
    by_cases h : k.sameKey (.text key)
    · rw [if_pos h, lookup_cons, if_pos h]
    · rw [if_neg h, lookup_cons, if_neg h]
      exact ih

theorem lookup_put_of_ne (h : key ≠ other) :
    Value.lookup (r.put key v) other = Value.lookup r other := by
  have hne : ¬ (Value.text key).sameKey (.text other) := fun hsame =>
    h (Value.text.inj (Value.sameKey_text_iff.1 hsame))
  induction r with
  | nil => exact (lookup_cons (.text key)).trans (if_neg hne)
  | cons e r ih =>
    obtain ⟨k, w⟩ := e
    rw [put, Value.insertEntry]
    by_cases hk : k.sameKey (.text key)
    · rw [if_pos hk, lookup_cons, lookup_cons, Value.sameKey_text_iff.1 hk, if_neg hne, if_neg hne]
    · rw [if_neg hk, lookup_cons, lookup_cons]
      exact congrArg _ ih

@[simp] theorem get_put_self : (r.put key v).get key = .ok v := by
  rw [get, lookup_put_self]

theorem get_put_of_ne (h : key ≠ other) : (r.put key v).get other = r.get other := by
  rw [get, get, lookup_put_of_ne h]

@[simp] theorem getOrNull_put_self : (r.put key v).getOrNull key = v := by
  rw [getOrNull, lookup_put_self, Option.getD_some]

theorem getOrNull_put_of_ne (h : key ≠ other) :
    (r.put key v).getOrNull other = r.getOrNull other := by
  rw [getOrNull, getOrNull, lookup_put_of_ne h]

theorem execution_put_of_ne (h : key ≠ "executionInterval") (mode : Value) :
    execution mode (r.put key v) = execution mode r := by
  unfold execution
  rw [getOrNull_put_of_ne h]

/-! ## What the fields were read as -/

theorem of_taskOf {id everyDay enabled : Value} {commands : List Value} {schedule : Schedule}
    {days : DaySet} {execution : Execution} {mark : Option DateTime}
    (h : taskOf id commands schedule days everyDay execution enabled mark = .ok t) :
    Field.commands (.list commands) = .ok t.commands ∧ t.schedule = schedule ∧ t.lastRun = mark := by
  obtain ⟨⟨id, names, every, on⟩, hfields, rfl⟩ := exists_of_map_ok h
  have hnames := (Checked.both_eq_ok.1 (Checked.both_eq_ok.1 hfields).2).1
  exact ⟨Checked.under_eq_ok.1 hnames, rfl, rfl⟩

structure Decodes (r : Record) (t : Task) : Prop where
  schedule : ∃ type start finish ticks, time (r.getOrNull "startTime") = .ok start ∧
    time (r.getOrNull "endTime") = .ok finish ∧
    Record.schedule type start finish ticks (r.getOrNull "intervalUnit") = .ok t.schedule
  commands : ∃ v items, Value.lookup r "commands" = some v ∧ members v = .ok items ∧
    Field.commands (.list items) = .ok t.commands
  lastRun : Record.lastRun (r.getOrNull "lastExecutionTime") = .ok t.lastRun

theorem lookup_of_get (h : r.get key = .ok v) : Value.lookup r key = some v := by
  unfold get at h
  split at h <;> cases h
  assumption

theorem decodes_of_toTask (h : toTask r = .ok t) : Decodes r t := by
  obtain ⟨type, -, h⟩ := exists_of_bind_ok h
  obtain ⟨start, hstart, h⟩ := exists_of_bind_ok h
  obtain ⟨finish, hfinish, h⟩ := exists_of_bind_ok h
  obtain ⟨ticks, -, h⟩ := exists_of_bind_ok h
  obtain ⟨schedule, hschedule, h⟩ := exists_of_bind_ok h
  obtain ⟨mode, -, h⟩ := exists_of_bind_ok h
  obtain ⟨execution, -, h⟩ := exists_of_bind_ok h
  obtain ⟨id, -, h⟩ := exists_of_bind_ok h
  obtain ⟨listed, hlisted, h⟩ := exists_of_bind_ok h
  obtain ⟨items, hitems, h⟩ := exists_of_bind_ok h
  obtain ⟨days, -, h⟩ := exists_of_bind_ok h
  obtain ⟨mark, hmark, h⟩ := exists_of_bind_ok h
  obtain ⟨hcommands, rfl, rfl⟩ := of_taskOf (checked_eq_ok.1 h)
  exact ⟨⟨type, start, finish, ticks, hstart, hfinish, hschedule⟩,
    ⟨listed, items, lookup_of_get hlisted, hitems, hcommands⟩, hmark⟩

/-! ## Commands -/

inductive Shows : Value → String → Prop
  | text (s : String) : Shows (.text s) s
  | bytes {data : List UInt8} {s : String} (h : String.fromUTF8? ⟨data.toArray⟩ = some s) :
    Shows (.bytes data) s

/-- The texts that a value holds one after another. -/
inductive Spells : Value → List String → Prop
  | list {items : List Value} {cs : List String} (h : List.Forall₂ Shows items cs) :
    Spells (.list items) cs
  | set {members : List Value} {cs : List String} (h : List.Forall₂ Shows members cs) :
    Spells (.set members) cs
  | pair {v w : Value} {c d : String} (hv : Shows v c) (hw : Shows w d) :
    Spells (.pair v w) [c, d]
  | keys {entries : List (Value × Value)} {cs : List String}
    (h : List.Forall₂ Shows (entries.map (·.1)) cs) : Spells (.map entries) cs
  | characters (s : String) : Spells (.text s) (s.toList.map String.singleton)

theorem text_eq_ok_iff {s : String} : Field.text v = .ok s ↔ Shows v s := by
  constructor
  · intro h
    unfold Field.text at h
    split at h
    next => cases h; exact .text s
    next =>
      split at h
      next hdata => cases h; exact .bytes hdata
      next => cases h
    next => cases h
  · rintro (_ | h)
    · rfl
    · simp only [Field.text, h]

theorem each_eq_ok_iff {α β : Type} {check : α → Checked β} {xs : List α} {ys : List β} {i : Nat} :
    Checked.each check i xs = .ok ys ↔ List.Forall₂ (fun x y => check x = .ok y) xs ys := by
  constructor
  · intro h
    induction xs generalizing i ys with
    | nil =>
      cases h
      exact .nil
    | cons x xs ih =>
      obtain ⟨⟨y, zs⟩, hboth, rfl⟩ := exists_of_map_ok h
      obtain ⟨hy, hzs⟩ := Checked.both_eq_ok.1 hboth
      exact .cons (Checked.under_eq_ok.1 hy) (ih hzs)
  · intro h
    induction h generalizing i with
    | nil => rfl
    | cons hx _ ih =>
      rw [Checked.each, Checked.both_eq_ok.2 ⟨Checked.under_eq_ok.2 hx, ih⟩]
      rfl

theorem commands_eq_ok_iff {items : List Value} {cs : List String} :
    Field.commands (.list items) = .ok cs ↔ List.Forall₂ Shows items cs ∧ cs ≠ [] := by
  have hitems : List.Forall₂ Shows items cs ↔ Checked.each Field.text 0 items = .ok cs := by
    simp only [each_eq_ok_iff, text_eq_ok_iff]
  rw [hitems, Field.commands]
  cases heach : Checked.each Field.text 0 items with
  | error e => simp
  | ok ds =>
    cases ds with
    | nil =>
      simp only [Checked.fail, reduceCtorEq, Except.ok.injEq, false_iff, not_and, not_not]
      exact Eq.symm
    | cons d ds =>
      refine ⟨fun h => ⟨h, ?_⟩, And.left⟩
      rintro rfl
      cases h

theorem forall₂_shows_texts {xs cs : List String} :
    List.Forall₂ Shows (xs.map .text) cs ↔ cs = xs := by
  rw [List.forall₂_map_left_iff]
  have hshows : (fun x c => Shows (.text x) c) = fun x c : String => x = c := by
    ext x c
    constructor
    · rintro ⟨⟩
      rfl
    · rintro rfl
      exact .text x
  rw [hshows, List.forall₂_eq_eq_eq]
  exact eq_comm

theorem spells_iff {cs : List String} (hne : cs ≠ []) :
    Spells v cs ↔ ∃ items, members v = .ok items ∧ List.Forall₂ Shows items cs := by
  have hcharacters (s : String) : s.toList.map (fun c => Value.text (String.singleton c)) =
      (s.toList.map String.singleton).map .text := by
    rw [List.map_map]
    rfl
  constructor
  · intro h
    cases h with
    | list h => exact ⟨_, rfl, h⟩
    | set h => exact ⟨_, rfl, h⟩
    | pair hv hw => exact ⟨_, rfl, .cons hv (.cons hw .nil)⟩
    | keys h => exact ⟨_, rfl, h⟩
    | characters s => exact ⟨_, rfl, hcharacters s ▸ forall₂_shows_texts.2 rfl⟩
  · rintro ⟨items, hitems, h⟩
    cases v with
    | list items => cases hitems; exact .list h
    | set members => cases hitems; exact .set h
    | map entries => cases hitems; exact .keys h
    | pair v w =>
      cases hitems
      obtain _ | ⟨hv, hrest⟩ := h
      obtain _ | ⟨hw, hnil⟩ := hrest
      cases hnil
      exact .pair hv hw
    | text s =>
      cases hitems
      rw [hcharacters, forall₂_shows_texts] at h
      exact h ▸ .characters s
    | bytes data =>
      cases hitems
      cases data with
      | nil =>
        cases h
        exact absurd rfl hne
      | cons b data =>
        obtain _ | ⟨hb, -⟩ := h
        cases hb
    | _ => cases hitems

/-- The same texts as a list make the same record. -/
theorem toTask_put_commands {items : List Value} (hv : Value.lookup r "commands" = some v)
    (hitems : members v = .ok items) {cs : List String} (hshows : List.Forall₂ Shows items cs)
    (hne : cs ≠ []) : toTask (r.put "commands" (.list (cs.map .text))) = toTask r := by
  have hget : r.get "commands" = .ok v := by rw [get, hv]
  have hlist : members (.list (cs.map .text)) = .ok (cs.map .text) := rfl
  have hcommands : Field.commands (.list (cs.map .text)) = Field.commands (.list items) := by
    rw [commands_text hne, commands_eq_ok_iff.2 ⟨hshows, hne⟩]
  -- with all other fields the same, the two readings differ in the members of this one only
  have hbind {α β : Type} (a : α) (f : α → Except RecordError β) : (.ok a >>= f) = f a := rfl
  unfold toTask
  simp (disch := decide) only [get_put_of_ne, getOrNull_put_of_ne, lookup_put_of_ne,
    execution_put_of_ne, get_put_self, hget, hbind, hlist, hitems, taskOf, hcommands]

/-- A record is read as the one that lists the texts which its commands spell. Only a list of texts
spells just those. -/
theorem toTask_iff_spells (r : Record) (t : Task) :
    (toTask r = .ok t ↔ ∃ v, Value.lookup r "commands" = some v ∧ Spells v t.commands ∧
      t.commands ≠ [] ∧ toTask (r.put "commands" (.list (t.commands.map .text))) = .ok t) ∧
    ∀ xs cs, Spells (.list (xs.map .text)) cs ↔ cs = xs := by
  refine ⟨?_, fun xs cs => ?_⟩
  · constructor
    · intro h
      obtain ⟨v, items, hv, hitems, hcommands⟩ := (decodes_of_toTask h).commands
      obtain ⟨hshows, hne⟩ := commands_eq_ok_iff.1 hcommands
      rw [toTask_put_commands hv hitems hshows hne]
      exact ⟨v, hv, (spells_iff hne).2 ⟨items, hitems, hshows⟩, hne, h⟩
    · rintro ⟨v, hv, hspells, hne, h⟩
      obtain ⟨items, hitems, hshows⟩ := (spells_iff hne).1 hspells
      rwa [toTask_put_commands hv hitems hshows hne] at h
  · constructor
    · intro h
      cases h with
      | list h => exact forall₂_shows_texts.1 h
    · rintro rfl
      exact .list (forall₂_shows_texts.2 rfl)

def morning (commands : Value) : Record := [
  entry "id" (.text "a"),
  entry "commands" commands,
  entry "scheduleType" (.text "FIXED_TIME"),
  entry "startTime" (.text "09:00"),
  entry "executionMode" (.text "SINGLE")]

/-- The characters of a lone command become the commands. -/
theorem toTask_lone_command : ∃ t, toTask (morning (.text "/a")) = .ok t ∧
    t.commands = ["/", "a"] ∧ Value.lookup (morning (.text "/a")) "commands" = some (.text "/a") ∧
    ¬ ∃ items, Value.lookup (morning (.text "/a")) "commands" = some (.list items) := by
  have hlookup : Value.lookup (morning (.text "/a")) "commands" = some (.text "/a") := rfl
  let t : Task := {
    id := "a", commands := ["/", "a"], schedule := .fixedTime { micros := 32400000000 } }
  have hread : toTask (morning (.text "/a")) = .ok t := by decide +kernel
  refine ⟨t, hread, rfl, hlookup, ?_⟩
  rintro ⟨items, hitems⟩
  cases hlookup.symm.trans hitems

end Record

end Cadence
