import Synopsis.Fault
import Synopsis.Proofs.Entries

/-!
What complaints are reported as. Every fault has a title and a hint, and beside them only details of
the complaint itself, so that what presentation adds to a fault disturbs none of them.
-/
namespace Synopsis

/-- Details that are added are found, and the others are as before. -/
theorem Fault.detail?_withDetails (f : Fault) {changes : List (String × Value)}
    (h : ∀ d ∈ changes, d.1 ≠ "code") (key : String) :
    (f.withDetails changes).detail? key = (changes.reverse.lookup key).or (f.detail? key) := by
  have hfilter : changes.filter (·.1 != "code") = changes := by
    rw [List.filter_eq_self]
    exact fun d hd => bne_iff_ne.mpr (h d hd)
  unfold detail? withDetails
  rw [hfilter, lookup_overlay]

theorem Fault.code_withDetails (f : Fault) {changes : List (String × Value)}
    (h : ∀ d ∈ changes, d.1 ≠ "code") : (f.withDetails changes).code = f.code := by
  have hnone : changes.lookup "code" = none := by
    rw [List.lookup_eq_none_iff]
    exact fun d hd => bne_iff_ne.mpr (h d hd).symm
  unfold withDetails
  rw [hnone, Option.getD_none]

/-- The names of the details in which complaints are told apart. -/
def contextKeys : List String := ["count", "line", "token", "candidates", "enclosure", "tokens"]

/-- The fault is titled, and its other details are those of a complaint. -/
inductive Fault.Reported : Fault → Prop where
  | titled (code : Fault.Code) (title message hint : String) {details : List (String × Value)}
      (h : ∀ d ∈ details, d.1 ∈ contextKeys) :
      Reported (Fault.titled code title message hint details)

theorem Malformation.reported (why : Malformation) : why.report.Reported := by
  cases why <;> exact .titled _ _ _ _ (by simp [contextKeys])

/-- Everything that a complaint is reported as is reported with a title. -/
theorem Complaint.reported_of_report {c : Complaint} {fault : Fault} (h : c.report = .ok fault) :
    fault.Reported := by
  have hplaced {t : Token} {report : String → Fault} (hr : ∀ place, (report place).Reported)
      (h : (do let place ← t.whereabouts; .ok (report place)) = .ok fault) : fault.Reported := by
    cases hw : t.whereabouts with
    | error m => rw [hw] at h; cases h
    | ok place =>
      rw [hw] at h
      cases h
      exact hr place
  cases c with
  | usageNotFound | duplicatedUsage | emptyUsage | blankDescription | namelessDescription
  | unmatched =>
    cases h
    exact .titled _ _ _ _ (by simp [contextKeys])
  | malformed why =>
    cases h
    exact why.reported
  | unsplittable | dashInCluster | repeatedShort | unexpectedValue | missingLongValue
  | missingShortValue | ambiguous | missingEnclosure | unconsumed =>
    exact hplaced (fun place => .titled _ _ _ _ (by simp [contextKeys])) h
  | leftover prog left =>
    cases hn : left.mapM Pattern.callSign with
    | error m => simp only [Complaint.report, hn] at h; cases h
    | ok names =>
      simp only [Complaint.report, hn] at h
      cases h
      exact .titled _ _ _ _ (by simp [contextKeys])

theorem lookup_context {details : List (String × Value)} (h : ∀ d ∈ details, d.1 ∈ contextKeys)
    {key : String} (hk : key ∉ contextKeys) : details.lookup key = none := by
  rw [List.lookup_eq_none_iff]
  intro d hd
  rw [bne_iff_ne]
  rintro rfl
  exact hk (h d hd)

theorem not_code_of_titled {title hint : Value} {details : List (String × Value)}
    (h : ∀ d ∈ details, d.1 ∈ contextKeys) :
    ∀ d ∈ ("title", title) :: ("hint", hint) :: details, d.1 ≠ "code" := by
  rw [List.forall_mem_cons, List.forall_mem_cons]
  refine ⟨show "title" ≠ "code" by decide, show "hint" ≠ "code" by decide, fun d hd hc => ?_⟩
  exact absurd (hc ▸ h d hd) (by decide)

/-- Beside the details of a complaint there are only the title and the hint. -/
theorem Fault.detail?_titled (code : Fault.Code) (title message hint : String)
    {details : List (String × Value)} (h : ∀ d ∈ details, d.1 ∈ contextKeys) {key : String}
    (hk : key ∉ contextKeys) :
    (Fault.titled code title message hint details).detail? key =
      if key = "hint" then some (.text hint)
      else if key = "title" then some (.text title) else none := by
  have hdetails : details.reverse.lookup key = none :=
    lookup_context (fun d hd => h d (List.mem_reverse.mp hd)) hk
  rw [Fault.titled, Fault.make, Fault.detail?_withDetails _ (not_code_of_titled h),
    List.reverse_cons, List.reverse_cons, List.append_assoc, List.lookup_append, hdetails,
    Option.none_or, List.singleton_append, lookup_cons_eq_ite, lookup_cons_eq_ite]
  exact Option.or_none

namespace Fault.Reported

variable {fault : Fault}

theorem code (h : fault.Reported) :
    ∃ code, fault.kind = some code ∧ fault.code = .datum (.code code) := by
  cases h with
  | titled code title message hint h =>
    exact ⟨code, rfl, Fault.code_withDetails _ (not_code_of_titled h)⟩

theorem title (h : fault.Reported) : ∃ s, fault.detail? "title" = some (.text s) := by
  cases h with
  | titled code title message hint h => exact ⟨title, Fault.detail?_titled _ _ _ _ h (by decide)⟩

theorem hint (h : fault.Reported) : ∃ s, fault.detail? "hint" = some (.text s) := by
  cases h with
  | titled code title message hint h => exact ⟨hint, Fault.detail?_titled _ _ _ _ h (by decide)⟩

theorem prog (h : fault.Reported) : fault.detail? "prog" = none := by
  cases h with
  | titled code title message hint h => exact Fault.detail?_titled _ _ _ _ h (by decide)

end Fault.Reported

end Synopsis
