import Mathlib.Data.List.Nodup
import Mathlib.Logic.Function.Basic

/-! Records made field by field from another record's fields under other names,
what comes back when two such renamings follow each other, and what is lost when
a record is read through one, changed in a field and written through the other. -/
namespace NetGraphz.Renaming

variable {κ : Type u} {V : Type v} [DecidableEq κ]

/-- Where a table of names and sources takes a field from. Of two entries for one
name the later counts. -/
def source (table : List (κ × κ)) (name : κ) : Option κ := table.reverse.lookup name

/-- The record that a table makes of another one. A missing field is undefined. -/
def rename (table : List (κ × κ)) (record : κ → Option V) (name : κ) : Option V :=
  (source table name).bind record

theorem mem_of_source {table : List (κ × κ)} (found : source table name = some origin) :
    (name, origin) ∈ table := by
  obtain ⟨before, later, shape, _⟩ := List.lookup_eq_some_iff.mp found
  have held : (name, origin) ∈ table.reverse := by
    rw [shape]
    exact List.mem_append_right before List.mem_cons_self
  exact List.mem_reverse.mp held

/-- The field that a field comes back from. -/
def carried (first second : List (κ × κ)) (name : κ) : Option κ :=
  (source second name).bind (source first)

variable {there back : List (κ × κ)}

theorem rename_rename (record : κ → Option V) (name : κ) :
    rename back (rename there record) name = (carried there back name).bind record := by
  unfold rename carried
  exact (Option.bind_assoc ..).symm

/-- Where each field comes back from itself or not at all, all come back exactly
if those that do not were undefined. -/
theorem all_return_iff {fields : List κ}
    (straight : ∀ name ∈ fields, carried there back name = some name ∨
      carried there back name = none) (record : κ → Option V) :
    (∀ name ∈ fields, rename back (rename there record) name = record name) ↔
      ∀ name ∈ fields.filter (fun name => carried there back name = none), record name = none := by
  simp only [List.mem_filter, decide_eq_true_eq, and_imp]
  apply forall₂_congr
  intro name member
  rw [rename_rename]
  rcases straight name member with same | lost
  · simp [same]
  · simp [lost, eq_comm]

/-! ## Reading, changing a field and writing -/

variable (sent : V → V)

/-- What is written when one field of what was read is changed. -/
def writeBack (there back : List (κ × κ)) (seen : κ → Option V) (field : κ) (value : Option V)
    (name : κ) : Option V :=
  (rename there (Function.update (rename back seen) field value) name).map sent

/-- The stored field is where the changed one is written to or read from. -/
def Own (there back : List (κ × κ)) (field name : κ) : Prop :=
  source there name = some field ∨ source back field = some name

theorem writeBack_other {seen : κ → Option V} {field name : κ} {value : Option V}
    (other : source there name ≠ some field) :
    writeBack sent there back seen field value name =
      ((carried back there name).bind seen).map sent := by
  unfold writeBack rename carried
  cases written : source there name with
  | none => rfl
  | some origin =>
    have apart : origin ≠ field := fun same => other (same ▸ written)
    simp [Function.update_of_ne apart]

/-- What a write keeps of the fields that were not changed. Fields may come back
from strays, which are read but never written and hence lost themselves. -/
theorem keeps_iff {stored seen : κ → Option V} {strays : List κ}
    (distinct : (back.map Prod.snd).Nodup)
    (straight : ∀ write ∈ there, ∀ read ∈ back, read.1 = write.2 →
      read.2 = write.1 ∨ read.2 ∈ strays)
    (unwritten : ∀ name ∈ strays, source there name = none ∧ seen name = stored name)
    (field : κ) (value : Option V) :
    (∀ name, ¬Own there back field name → ∀ v, stored name = some v →
      writeBack sent there back seen field value name = some v) ↔
    ∀ name, ¬Own there back field name → ∀ v, stored name = some v →
      carried back there name = some name ∧ (seen name).map sent = some v := by
  constructor
  · intro keeps name other v held
    have kept := keeps name other v held
    rw [writeBack_other sent fun same => other (.inl same)] at kept
    cases via : carried back there name with
    | none =>
      rw [via] at kept
      cases kept
    | some origin =>
      rw [via, Option.bind_some] at kept
      obtain ⟨field', written, read⟩ := Option.bind_eq_some_iff.mp via
      rcases straight _ (mem_of_source written) _ (mem_of_source read) rfl with same | stray
      · obtain rfl : origin = name := same
        exact ⟨rfl, kept⟩
      · obtain ⟨nowhere, seenStored⟩ := unwritten origin stray
        obtain ⟨w, sees, _⟩ := Option.map_eq_some_iff.mp kept
        have apart : ¬Own there back field origin := by
          rintro (never | own)
          · rw [nowhere] at never
            cases never
          · have same := List.inj_on_of_nodup_map distinct (mem_of_source own)
              (mem_of_source read) rfl
            exact other (.inl (written.trans (congrArg (fun entry => some entry.1) same.symm)))
        have impossible := keeps origin apart w (seenStored ▸ sees)
        rw [writeBack, rename, nowhere] at impossible
        cases impossible
  · intro each name other v held
    obtain ⟨via, same⟩ := each name other v held
    rw [writeBack_other sent fun own => other (.inl own), via]
    exact same

end NetGraphz.Renaming
