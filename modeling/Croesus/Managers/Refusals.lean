import Croesus.Firestore.ParseContext
import Croesus.Managers.FIRFirestoreService

namespace Croesus.FIRFirestoreService

open Firestore ParseContext

variable {α : Type} [Codable α] {x : α} {reference : Except NSException DocumentKey}
  {db : Database}

/-- A write is issued exactly if it has a document and data without a fault. -/
theorem store_issued_iff : (store x reference db).2 = .issued ↔
    ∃ json key, toJson x ["id"] = .ok json ∧ reference = .ok key ∧
      ∀ place fault, ¬ Faulty false (.object json) place fault := by
  rw [store]
  cases hjson : toJson x ["id"] with
  | error e => simp
  | ok json =>
    cases reference with
    | error e => simp
    | ok key =>
      dsimp only
      have htaken := parsedSetData_taken json
      cases hfields : UserDataConverter.parsedSetData json with
      | ok fields =>
        have hnone := htaken.mp ⟨fields, hfields⟩
        simpa using hnone
      | error e =>
        have hsome : ¬ ∀ place fault, ¬ Faulty false (.object json) place fault := by
          intro hnone
          obtain ⟨fields, hok⟩ := htaken.mpr hnone
          cases hfields.symm.trans hok
        simpa using hsome

/-- What a write raises is for its document, or for a fault in its data. -/
theorem store_raised {e : NSException} (h : (store x reference db).2 = .raised e) :
    reference = .error e ∨ ∃ json place fault, toJson x ["id"] = .ok json ∧
      Faulty false (.object json) place fault ∧ e = fault.exception place := by
  rw [store] at h
  cases hjson : toJson x ["id"] with
  | error e' => simp [hjson] at h
  | ok json =>
    cases reference with
    | error e' => simp_all
    | ok key =>
      cases hfields : UserDataConverter.parsedSetData json with
      | ok fields => simp [hjson, hfields] at h
      | error e' =>
        obtain rfl : e' = e := by simpa [hjson, hfields] using h
        obtain ⟨place, fault, hfault, he⟩ := parsedSetData_raised hfields
        exact .inr ⟨json, place, fault, rfl, hfault, he⟩

end Croesus.FIRFirestoreService
