/-!
# Weekdays

The seven days from Monday to Sunday, their tags and full names, and sets of them.
-/

namespace Cadence

inductive Weekday
  | mon | tue | wed | thu | fri | sat | sun
  deriving DecidableEq, Repr, Inhabited

namespace Weekday

def all : List Weekday := [mon, tue, wed, thu, fri, sat, sun]

theorem mem_all (d : Weekday) : d ∈ all := by
  cases d <;> decide

def tag : Weekday → String
  | mon => "MON"
  | tue => "TUE"
  | wed => "WED"
  | thu => "THU"
  | fri => "FRI"
  | sat => "SAT"
  | sun => "SUN"

def fullName : Weekday → String
  | mon => "MONDAY"
  | tue => "TUESDAY"
  | wed => "WEDNESDAY"
  | thu => "THURSDAY"
  | fri => "FRIDAY"
  | sat => "SATURDAY"
  | sun => "SUNDAY"

def ofTag? (s : String) : Option Weekday :=
  all.find? (·.tag == s)

def ofFullName? (s : String) : Option Weekday :=
  all.find? (·.fullName == s)

/-- The day `n` days after a Monday. -/
def ofIndex (n : Nat) : Weekday :=
  match n % 7 with
  | 0 => mon
  | 1 => tue
  | 2 => wed
  | 3 => thu
  | 4 => fri
  | 5 => sat
  | _ => sun

theorem ofTag?_tag (d : Weekday) : ofTag? d.tag = some d := by
  cases d <;> decide

theorem ofFullName?_fullName (d : Weekday) : ofFullName? d.fullName = some d := by
  cases d <;> decide

end Weekday

/-- A set of weekdays. -/
@[ext]
structure DaySet where
  contains : Weekday → Bool

namespace DaySet

instance : Membership Weekday DaySet := ⟨fun s d => s.contains d = true⟩

instance (d : Weekday) (s : DaySet) : Decidable (d ∈ s) :=
  inferInstanceAs (Decidable (s.contains d = true))

def empty : DaySet := ⟨fun _ => false⟩

instance : EmptyCollection DaySet := ⟨empty⟩

instance : Inhabited DaySet := ⟨empty⟩

def insert (s : DaySet) (d : Weekday) : DaySet :=
  ⟨fun x => x == d || s.contains x⟩

def ofList (ds : List Weekday) : DaySet :=
  ds.foldl insert empty

/-- The members from Monday to Sunday. -/
def toList (s : DaySet) : List Weekday :=
  Weekday.all.filter s.contains

@[simp] theorem not_mem_empty (d : Weekday) : ¬ d ∈ (∅ : DaySet) :=
  Bool.false_ne_true

@[simp] theorem mem_insert {s : DaySet} {d x : Weekday} : x ∈ s.insert d ↔ x = d ∨ x ∈ s := by
  change (x == d || s.contains x) = true ↔ x = d ∨ s.contains x = true
  simp

@[simp] theorem mem_toList {s : DaySet} {d : Weekday} : d ∈ s.toList ↔ d ∈ s := by
  simp only [toList, List.mem_filter, Weekday.mem_all, true_and]
  rfl

theorem ext_mem {s t : DaySet} (h : ∀ d, d ∈ s ↔ d ∈ t) : s = t := by
  ext d
  exact Bool.eq_iff_iff.2 (h d)

theorem toList_inj {s t : DaySet} : s.toList = t.toList ↔ s = t :=
  ⟨fun h => ext_mem fun d => by rw [← mem_toList, h, mem_toList], fun h => h ▸ rfl⟩

instance : DecidableEq DaySet := fun s t =>
  decidable_of_iff (s.toList = t.toList) toList_inj

@[simp] theorem mem_ofList {ds : List Weekday} {d : Weekday} : d ∈ ofList ds ↔ d ∈ ds := by
  suffices ∀ s : DaySet, d ∈ ds.foldl insert s ↔ d ∈ ds ∨ d ∈ s by
    simpa [ofList] using (this empty).trans (or_iff_left (not_mem_empty d))
  induction ds with
  | nil => simp
  | cons e ds ih =>
    intro s
    rw [List.foldl_cons, ih, mem_insert, List.mem_cons]
    constructor
    · rintro (h | h | h)
      · exact .inl (.inr h)
      · exact .inl (.inl h)
      · exact .inr h
    · rintro ((h | h) | h)
      · exact .inr (.inl h)
      · exact .inl h
      · exact .inr (.inr h)

end DaySet

end Cadence
