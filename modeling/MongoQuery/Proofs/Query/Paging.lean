import MongoQuery.Proofs.Query.Page
import MongoQuery.Proofs.Query.Source

/-!
# Reading page by page

The run of a specification reads its page from a source, goes on with the page after the
last record of it, and ends at an empty page.

Main statement: where the values of the sort field are ordered, the run ends; no record
stands on two pages, the pages together are in order, and they hold all records for which
the filter holds but for some that tie with the last record of a page.
-/

namespace MongoQuery

namespace Source

/-! ### Runs -/

/-- The pages that are read from a specification on, until one is empty. -/
inductive Run (S : Source) (now : Instant) : FilterSpec → List (List Document) → Prop where
  | stop {spec : FilterSpec} : S.answer (spec.find now) = [] → Run S now spec []
  | more {spec : FilterSpec} {last : Document} {pages : List (List Document)} :
      (S.answer (spec.find now)).getLast? = some last → Run S now (spec.pageAfter last) pages →
        Run S now spec (S.answer (spec.find now) :: pages)

/-- Pages cover what a command asks for without its limit. -/
structure Covers (S : Source) (command : FindCommand) (path : String)
    (pages : List (List Document)) : Prop where
  /-- No record stands on two pages. -/
  disjoint : pages.Pairwise List.Disjoint
  /-- The pages together are in the order of the command. -/
  inOrder : pages.flatten.Pairwise fun r r' => ¬ Document.Precedes S.less command.sort r' r
  /-- The filter of the command holds for every record on the pages. -/
  matching : ∀ r ∈ pages.flatten, r ∈ S.records ∧ S.Matches command.filter r
  /-- A matching record that is missing ties with the last record of a page. -/
  missing : ∃ missing, (S.matching command).Perm (pages.flatten ++ missing) ∧
    ∀ r ∈ missing, ∃ page ∈ pages, ∃ last, page.getLast? = some last ∧
      Document.Ties S.less path r last

/-! ### One step of a run -/

variable {S : Source} {now : Instant} {spec : FilterSpec} {last : Document}

/-- The test that asks for what lies past the value of a record is passed by the records
which that record precedes. -/
theorem test_past_iff (key : SortKey) {v : Value} (hlast : last.at? key.field = some v)
    (r : Document) :
  S.test r key.field (.document (Document.single key.direction.past.operator v))
    ↔ Document.Precedes S.less key.document last r
  := by
  rw [Document.precedes_document_iff]
  obtain ⟨field, direction⟩ := key
  cases direction with
  | asc =>
      change (∃ w, r.at? field = some w ∧ S.less v w) ↔ Document.Below S.less field last r
      constructor
      · rintro ⟨w, hw, hless⟩
        use v, w
      · rintro ⟨v', w, hv', hw, hless⟩
        obtain rfl := Option.some.inj (hlast.symm.trans hv')
        use w
  | desc =>
      change (∃ w, r.at? field = some w ∧ S.less w v) ↔ Document.Below S.less field r last
      constructor
      · rintro ⟨w, hw, hless⟩
        use w, v
      · rintro ⟨w, v', hw, hv', hless⟩
        obtain rfl := Option.some.inj (hlast.symm.trans hv')
        use w

open Classical in
/-- What matches on the page after a record is what matches so far and is preceded by it. -/
theorem matching_pageAfter (h : spec.Regular) {v : Value}
    (hlast : last.at? spec.sort.field = some v) :
  S.matching ((spec.pageAfter last).find now)
    = (S.matching (spec.find now)).filter fun r =>
        Document.Precedes S.less spec.sort.document last r
  := by
  have hmatches : ∀ r, S.Matches ((spec.pageAfter last).find now).filter r
      ↔ Document.Precedes S.less spec.sort.document last r
        ∧ S.Matches (spec.find now).filter r := by
    intro r
    have hfilter := FilterSpec.holds_filter_pageAfter now (S.test r) h hlast
    rw [test_past_iff spec.sort hlast r, and_comm] at hfilter
    apply hfilter
  rw [matching, matching, FilterSpec.sort_find_pageAfter, List.filter_filter]
  apply List.filter_congr
  intro r _
  rw [← Bool.decide_and, decide_eq_decide]
  apply hmatches

/-- A run from one specification has one outcome. -/
theorem Run.unique {pages others : List (List Document)} (h : S.Run now spec pages)
    (h' : S.Run now spec others) :
  pages = others
  := by
  induction h generalizing others with
  | stop hempty =>
      cases h' with
      | stop => rfl
      | more hlast _ =>
          rw [hempty] at hlast
          cases hlast
  | more hlast _ ih =>
      cases h' with
      | stop hempty =>
          rw [hempty] at hlast
          cases hlast
      | more hlast' hrun =>
          obtain rfl := Option.some.inj (hlast.symm.trans hlast')
          rw [ih hrun]

end Source

/-! ### Cutting an ordered list after a page -/

section Cut

variable {α : Type} {before : α → α → Prop} {page rest : List α} {last : α}

/-- Nothing on a page of an ordered list comes after the last of the page. -/
theorem not_before_of_mem_page (horder : page.Pairwise fun a b => ¬ before b a)
    (hlast : page.getLast? = some last) (hirrefl : ¬ before last last) {a : α} (ha : a ∈ page) :
  ¬ before last a
  := by
  obtain ⟨init, rfl⟩ := List.getLast?_eq_some_iff.mp hlast
  rcases List.mem_append.mp ha with hinit | hlast'
  · apply (List.pairwise_append.mp horder).2.2 a hinit last (List.mem_singleton_self last)
  · rw [List.mem_singleton.mp hlast']
    apply hirrefl

open Classical in
/-- What comes after the last of a page stands behind the page. -/
theorem filter_before_page (horder : page.Pairwise fun a b => ¬ before b a)
    (hlast : page.getLast? = some last) (hirrefl : ¬ before last last) :
  (page ++ rest).filter (fun a => before last a) = rest.filter fun a => before last a
  := by
  have hpage : page.filter (fun a => before last a) = [] := by
    apply List.filter_eq_nil_iff.mpr
    intro a ha
    rw [decide_eq_true_eq]
    apply not_before_of_mem_page horder hlast hirrefl ha
  rw [List.filter_append, hpage, List.nil_append]

end Cut

namespace Source

variable {S : Source} {now : Instant} {spec : FilterSpec}

/-- The limit of a command is positive when that of the specification is. -/
theorem limit_pos (now : Instant) (hlimit : 1 ≤ spec.limit) :
  0 < (spec.find now).limit.toInt.toNat
  := by
  have hpos : 1 ≤ spec.limit.toNat := hlimit
  have hmin : Int64.minValue.toInt ≤ spec.limit.toNat := by
    apply Int.le_trans (b := 0)
    · decide
    · omega
  change 0 < (Int64.ofIntClamp spec.limit.toNat).toInt.toNat
  rw [Int64.ofIntClamp, dif_pos hmin]
  split
  · next hmax =>
      rw [Int64.toInt_ofIntLE]
      omega
  · decide

theorem matching_inOrder (now : Instant)
    (hordered : Document.Ordered S.less S.records spec.sort.field) :
  (S.matching (spec.find now)).Pairwise fun r r' =>
    ¬ Document.Precedes S.less spec.sort.document r' r
  := by
  apply List.Pairwise.filter
  apply S.ordered spec.sort hordered

/-- What the answer to a command leaves out. -/
noncomputable def remainder (S : Source) (command : FindCommand) : List Document :=
  (S.matching command).drop command.limit.toInt.toNat

theorem answer_append_remainder (command : FindCommand) :
  S.answer command ++ S.remainder command = S.matching command
  := by
  apply List.take_append_drop

theorem last_mem_records {command : FindCommand} {last : Document}
    (hlast : (S.answer command).getLast? = some last) :
  last ∈ S.records
  := by
  have hmem : last ∈ S.matching command := by
    rw [← answer_append_remainder]
    apply List.mem_append_left
    apply List.mem_of_getLast? hlast
  apply (mem_matching.mp hmem).1

open Classical in
/-- What matches on the next page is what the answer leaves out and its last record
precedes. -/
theorem matching_next (hregular : spec.Regular)
    (hordered : Document.Ordered S.less S.records spec.sort.field) {last : Document}
    (hlast : (S.answer (spec.find now)).getLast? = some last) :
  S.matching ((spec.pageAfter last).find now)
    = (S.remainder (spec.find now)).filter fun r =>
        Document.Precedes S.less spec.sort.document last r
  := by
  have hrecord := last_mem_records hlast
  obtain ⟨v, hv⟩ := hordered.value last hrecord
  have horder := matching_inOrder now hordered
  rw [← answer_append_remainder, List.pairwise_append] at horder
  rw [matching_pageAfter hregular hv, ← answer_append_remainder]
  apply filter_before_page horder.1 hlast (hordered.precedes_irrefl hrecord)

/-- What the answer to a command leaves out and its last record does not precede ties with
that record. -/
theorem ties_of_mem_remainder (hordered : Document.Ordered S.less S.records spec.sort.field)
    {last r : Document} (hlast : (S.answer (spec.find now)).getLast? = some last)
    (hr : r ∈ S.remainder (spec.find now))
    (hpast : ¬ Document.Precedes S.less spec.sort.document last r) :
  Document.Ties S.less spec.sort.field r last
  := by
  have horder := matching_inOrder now hordered
  rw [← answer_append_remainder, List.pairwise_append] at horder
  apply Document.ties_of_not_precedes _ hpast
  apply horder.2.2 last (List.mem_of_getLast? hlast) r hr

/-- Pages that cover the command of the next page, behind the answer to a command, cover that
command. -/
theorem Covers.cons (hregular : spec.Regular)
    (hordered : Document.Ordered S.less S.records spec.sort.field) {last : Document}
    {pages : List (List Document)} (hlast : (S.answer (spec.find now)).getLast? = some last)
    (hpages : S.Covers ((spec.pageAfter last).find now) spec.sort.field pages) :
  S.Covers (spec.find now) spec.sort.field (S.answer (spec.find now) :: pages)
  := by
  classical
  obtain ⟨hdisjoint, hinOrder, -, missing, hperm, hties⟩ := hpages
  have horder := matching_inOrder now hordered
  rw [← answer_append_remainder, List.pairwise_append] at horder
  rw [matching_next hregular hordered hlast] at hperm
  have hlater : ∀ r ∈ pages.flatten, r ∈ S.remainder (spec.find now)
      ∧ Document.Precedes S.less spec.sort.document last r := by
    intro r hr
    have hmem := hperm.mem_iff.mpr (List.mem_append_left missing hr)
    rw [List.mem_filter, decide_eq_true_eq] at hmem
    apply hmem
  constructor
  · apply List.Pairwise.cons _ hdisjoint
    intro page hpage r hr hr'
    have hpast := (hlater r (List.mem_flatten_of_mem hpage hr')).2
    have hirrefl := hordered.precedes_irrefl (last_mem_records hlast)
    apply not_before_of_mem_page horder.1 hlast hirrefl hr hpast
  · rw [List.flatten_cons, List.pairwise_append]
    use horder.1
    constructor
    · rw [← FilterSpec.sort_find_pageAfter now spec last]
      apply hinOrder
    · intro r hr r' hr'
      apply horder.2.2 r hr r' (hlater r' hr').1
  · intro r hr
    rw [← mem_matching, ← answer_append_remainder]
    rcases List.mem_append.mp hr with hanswer | hlater'
    · apply List.mem_append_left _ hanswer
    · apply List.mem_append_right _ (hlater r hlater').1
  · use missing ++ (S.remainder (spec.find now)).filter fun r =>
      !decide (Document.Precedes S.less spec.sort.document last r)
    constructor
    · rw [← answer_append_remainder, List.flatten_cons, List.append_assoc,
        ← List.append_assoc _ missing]
      apply List.Perm.append_left
      apply List.Perm.trans (List.filter_append_perm _ _).symm
      apply List.Perm.append_right _ hperm
    · intro r hr
      rcases List.mem_append.mp hr with hmissing | htied
      · obtain ⟨page, hpage, hr'⟩ := hties r hmissing
        use page, List.mem_cons_of_mem _ hpage
      · rw [List.mem_filter, Bool.not_eq_true', decide_eq_false_iff_not] at htied
        use S.answer (spec.find now), List.mem_cons_self, last, hlast
        apply ties_of_mem_remainder hordered hlast htied.1 htied.2

/-- An empty answer covers the command, as its limit is positive. -/
theorem covers_nil (hlimit : 1 ≤ spec.limit) (hempty : S.answer (spec.find now) = []) :
  S.Covers (spec.find now) spec.sort.field []
  := by
  have hnone : S.matching (spec.find now) = [] := by
    rcases List.take_eq_nil_iff.mp hempty with hzero | hnil
    · have hpos := limit_pos now hlimit
      omega
    · apply hnil
  constructor
  · apply List.Pairwise.nil
  · apply List.Pairwise.nil
  · intro r hr
    cases hr
  · use []
    rw [hnone]
    constructor
    · apply List.Perm.refl
    · intro r hr
      cases hr

/-- A run from a specification ends, and its pages cover the command. -/
theorem exists_run (now : Instant) (hlimit : 1 ≤ spec.limit) (hregular : spec.Regular)
    (hordered : Document.Ordered S.less S.records spec.sort.field) :
  ∃ pages, S.Run now spec pages ∧ S.Covers (spec.find now) spec.sort.field pages
  := by
  classical
  induction hn : (S.matching (spec.find now)).length using Nat.strongRecOn generalizing spec with
  | ind n ih =>
      cases hlast : (S.answer (spec.find now)).getLast? with
      | none =>
          have hempty := List.getLast?_eq_none_iff.mp hlast
          use [], Run.stop hempty
          apply covers_nil hlimit hempty
      | some last =>
          obtain ⟨v, hv⟩ := hordered.value last (last_mem_records hlast)
          have hfewer : (S.matching ((spec.pageAfter last).find now)).length < n := by
            have hanswer : 0 < (S.answer (spec.find now)).length := by
              apply List.length_pos_of_mem (List.mem_of_getLast? hlast)
            have hfilter := List.length_filter_le
              (fun r => decide (Document.Precedes S.less spec.sort.document last r))
              (S.remainder (spec.find now))
            rw [← hn, matching_next hregular hordered hlast, ← answer_append_remainder,
              List.length_append]
            omega
          have hsort : (spec.pageAfter last).sort.field = spec.sort.field := by
            rw [FilterSpec.sort_pageAfter]
          obtain ⟨pages, hrun, hcovers⟩ := ih _ hfewer
            (by rw [FilterSpec.limit_pageAfter]; apply hlimit) (hregular.pageAfter hv)
            (by rw [hsort]; apply hordered) rfl
          use S.answer (spec.find now) :: pages, Run.more hlast hrun
          apply Covers.cons hregular hordered hlast
          rw [← hsort]
          apply hcovers

/-- Three records, two of which tie. -/
def sampleRecords : List Document :=
  [[("id", .int32 2)], [("id", .int32 1)], [("id", .int32 2)]]

/-- Whether an integer is less than another. -/
def intLess : Value → Value → Prop
  | .int32 n, .int32 m => n.toInt < m.toInt
  | _, _ => False

theorem sampleRecords_ordered :
  Document.Ordered intLess sampleRecords "id"
  := by
  have hat : ∀ n : Int32, Document.at? [("id", .int32 n)] "id" = some (.int32 n) := by
    intro n
    rfl
  have hbelow : ∀ n m : Int32, Document.Below intLess "id" [("id", .int32 n)] [("id", .int32 m)]
      ↔ n.toInt < m.toInt := by
    intro n m
    simp [Document.Below, hat, intLess]
  constructor
  · simp [sampleRecords, hat]
  · simp only [sampleRecords, List.forall_mem_cons, hbelow, List.not_mem_nil, false_implies,
      implies_true, and_true]
    omega
  · simp only [sampleRecords, List.forall_mem_cons, hbelow, List.not_mem_nil, false_implies,
      implies_true, and_true]
    omega

/-- From a specification with a positive limit exactly one run can be made, and its pages
cover the command of the specification. -/
theorem exists_unique_run (S : Source) (now : Instant) (spec : FilterSpec)
    (hlimit : 1 ≤ spec.limit) (hregular : spec.Regular)
    (hordered : Document.Ordered S.less S.records spec.sort.field) :
  ∃ pages, (∀ others, S.Run now spec others ↔ others = pages)
    ∧ S.Covers (spec.find now) spec.sort.field pages
  := by
  obtain ⟨pages, hrun, hcovers⟩ := exists_run now hlimit hregular hordered
  use pages
  constructor
  · intro others
    constructor
    · intro hothers
      apply hothers.unique hrun
    · rintro rfl
      apply hrun
  · apply hcovers

/-- The run over the sample from the initial specification, one record a page. -/
theorem exists_unique_run_sample :
  Document.Ordered intLess sampleRecords "id" ∧ ∃ pages,
    (∀ others, (ofRecords sampleRecords intLess fun _ _ _ => True).Run ⟨0⟩
        (FilterSpec.initial.limitTo 1) others ↔ others = pages)
      ∧ (ofRecords sampleRecords intLess fun _ _ _ => True).Covers
          ((FilterSpec.initial.limitTo 1).find ⟨0⟩) "id" pages
  := by
  use sampleRecords_ordered
  have hregular : (FilterSpec.initial.limitTo 1).Regular := by
    constructor
    · intro statement hs group hg
      obtain rfl := List.mem_singleton.mp hs
      obtain rfl := List.mem_singleton.mp hg
      constructor
      · apply List.nodup_nil
      · intro f hf
        cases hf
    · decide
  apply exists_unique_run (ofRecords sampleRecords intLess fun _ _ _ => True) ⟨0⟩
    (FilterSpec.initial.limitTo 1) (by decide) hregular sampleRecords_ordered

end Source

end MongoQuery
