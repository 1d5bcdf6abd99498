import AgentLabs.Math.Packing
import AgentLabs.Text.PythonStr
import Mathlib.Data.Finset.Sort

/-!
# Chunks of a text

A text is cut at its headings into sections, and sections that hold nothing are left out. The
sections are put together greedily up to a target size. A section that is larger than the target
stays whole.

A section that begins with a heading is never blank. So the only text that can get lost is what
comes before the first heading.

## Main definitions

* `HeadingAt`: where a heading line starts
* `sectionChunks`, `boundedChunks`: the sections of a text, and the chunks
* `lead`: where the first section starts that is not blank
* `IsSection`: neighbouring boundaries
* `ChunkLaw`: what the chunks have to do with the text

## Main results

* `tiles_sectionChunks`: the sections lie end to end, up to the end of the text
* `boundedChunks_law`: the chunks of a text obey the law, whatever the text and the target are
-/

namespace AgentLabs.Retrieval

open Math Text

/-! ### Slices -/

/-- `text[a:b]`. -/
def slice (text : String) (a b : ℕ) : String := .ofList ((text.toList.drop a).take (b - a))

/-- The text from `a` on is the one up to `b` and the one from `b` on. -/
theorem slice_append (text : String) {a b c : ℕ} (first : a ≤ b) (second : b ≤ c) :
    slice text a b ++ slice text b c = slice text a c := by
  apply String.toList_inj.mp
  have sizes : c - a = (b - a) + (c - b) := by omega
  simp only [slice, String.toList_append, String.toList_ofList]
  rw [sizes, List.take_add, List.drop_drop, Nat.add_sub_cancel' first]

theorem slice_self (text : String) (a : ℕ) : slice text a a = "" := by
  simp [slice]

theorem slice_all (text : String) : slice text 0 text.length = text := by
  simp [slice, ← String.length_toList]

theorem slice_of_tiles (text : String) {a c : ℕ} {segments : List (ℕ × ℕ)}
    (tiles : Tiles a segments c) :
    String.join (segments.map fun s => slice text s.1 s.2) = slice text a c := by
  induction tiles with
  | nil a => simp [slice_self]
  | cons step rest ih =>
    rw [List.map_cons, String.join_cons, ih, slice_append text step.le rest.le]

/-! ### Headings -/

/-- Whether `#{1,3} ` matches here. -/
def isHeading (cs : List Char) : Bool :=
  [1, 2, 3].any fun n => (List.replicate n '#' ++ [' ']).isPrefixOf cs

/-- The starts of the matches of `(?m)^#{1,3} `. Within a match no line starts, so nothing is
lost by looking on from its second character. -/
def headingStartsFrom (pos : ℕ) (lineStart : Bool) : List Char → List ℕ
  | [] => []
  | c :: cs =>
    if lineStart && isHeading (c :: cs) then pos :: headingStartsFrom (pos + 1) (c == '\n') cs
    else headingStartsFrom (pos + 1) (c == '\n') cs

def headingStarts (text : String) : List ℕ := headingStartsFrom 0 true text.toList

/-- A heading line starts here: a line does, with one to three number signs and a space. -/
def HeadingAt (text : String) (i : ℕ) : Prop :=
  (i = 0 ∨ text.toList[i - 1]? = some '\n') ∧
    ∃ n, 1 ≤ n ∧ n ≤ 3 ∧ List.replicate n '#' ++ [' '] <+: text.toList.drop i

theorem isHeading_iff {cs : List Char} :
    isHeading cs ↔ ∃ n, 1 ≤ n ∧ n ≤ 3 ∧ List.replicate n '#' ++ [' '] <+: cs := by
  have listed : ∀ n, n ∈ [1, 2, 3] ↔ 1 ≤ n ∧ n ≤ 3 := fun n => by
    simp only [List.mem_cons, List.not_mem_nil, or_false]
    omega
  simp only [isHeading, List.any_eq_true, List.isPrefixOf_iff_prefix, listed, and_assoc]

theorem mem_headingStartsFrom {pos : ℕ} {lineStart : Bool} {cs : List Char} {i : ℕ} :
    i ∈ headingStartsFrom pos lineStart cs ↔
      ∃ k < cs.length, i = pos + k ∧ isHeading (cs.drop k) ∧
        (k = 0 ∧ lineStart ∨ 0 < k ∧ cs[k - 1]? = some '\n') := by
  induction cs generalizing pos lineStart with
  | nil => simp [headingStartsFrom]
  | cons c cs ih =>
    have later : i ∈ headingStartsFrom (pos + 1) (c == '\n') cs ↔
        ∃ k < cs.length, i = pos + (k + 1) ∧ isHeading (cs.drop k) ∧
          (c :: cs)[k]? = some '\n' := by
      rw [ih]
      refine exists_congr fun k => and_congr_right fun _ =>
        and_congr (by omega) (and_congr_right fun _ => ?_)
      cases k with
      | zero => simp
      | succ k => simp
    -- A heading starts at the first character or at a later one.
    have split : (∃ k < (c :: cs).length, i = pos + k ∧ isHeading ((c :: cs).drop k) ∧
          (k = 0 ∧ lineStart ∨ 0 < k ∧ (c :: cs)[k - 1]? = some '\n')) ↔
        (i = pos ∧ isHeading (c :: cs) ∧ lineStart) ∨
          ∃ k < cs.length, i = pos + (k + 1) ∧ isHeading (cs.drop k) ∧
          (c :: cs)[k]? = some '\n' := by
      constructor
      · rintro ⟨_ | k, bound, rfl, heading, start⟩
        · exact .inl ⟨rfl, heading, by simpa using start⟩
        · exact .inr ⟨k, by simpa using bound, rfl, heading, by simpa using start⟩
      · rintro (⟨rfl, heading, start⟩ | ⟨k, bound, rfl, heading, start⟩)
        · exact ⟨0, by simp, rfl, heading, .inl ⟨rfl, start⟩⟩
        · exact ⟨k + 1, by simpa using bound, rfl, heading, .inr ⟨k.succ_pos, by simpa using start⟩⟩
    rw [split, ← later, headingStartsFrom]
    split_ifs with here
    · rw [Bool.and_eq_true] at here
      simp [here.1, here.2]
    · rw [Bool.and_eq_true] at here
      have none : ¬ (i = pos ∧ isHeading (c :: cs) ∧ lineStart) :=
        fun found => here ⟨found.2.2, found.2.1⟩
      rw [or_iff_right none]

theorem mem_headingStarts {text : String} {i : ℕ} : i ∈ headingStarts text ↔ HeadingAt text i := by
  rw [headingStarts, mem_headingStartsFrom, HeadingAt, ← isHeading_iff]
  constructor
  · rintro ⟨k, -, rfl, heading, start⟩
    rw [Nat.zero_add]
    refine ⟨?_, heading⟩
    rcases start with ⟨rfl, -⟩ | ⟨-, start⟩
    · exact .inl rfl
    · exact .inr start
  · rintro ⟨start, heading⟩
    refine ⟨i, ?_, (Nat.zero_add i).symm, heading, ?_⟩
    · by_contra beyond
      rw [List.drop_eq_nil_of_le (not_lt.mp beyond)] at heading
      exact absurd heading (by decide)
    · rcases Nat.eq_zero_or_pos i with rfl | positive
      · exact .inl ⟨rfl, rfl⟩
      · exact .inr ⟨positive, start.resolve_left positive.ne'⟩

namespace HeadingAt

variable {text : String} {i : ℕ}

/-- A heading line begins with a number sign. -/
theorem mark (heading : HeadingAt text i) : text.toList[i]? = some '#' := by
  obtain ⟨-, n, least, -, starts⟩ := heading
  obtain ⟨m, rfl⟩ : ∃ m, n = m + 1 := ⟨n - 1, by omega⟩
  rw [List.replicate_succ, List.cons_append] at starts
  obtain ⟨rest, whole⟩ := starts
  have first := congrArg List.head? whole
  rwa [List.cons_append, List.head?_cons, List.head?_drop, eq_comm] at first

theorem lt_length (heading : HeadingAt text i) : i < text.length := by
  rw [← String.length_toList]
  exact (List.getElem?_eq_some_iff.mp heading.mark).1

/-- A text that begins with a heading is not blank. -/
theorem not_blank (heading : HeadingAt text i) {b : ℕ} (less : i < b) :
    isBlank (slice text i b) = false := by
  have present : '#' ∈ (slice text i b).toList := by
    rw [slice, String.toList_ofList]
    apply List.mem_of_getElem? (i := 0)
    rw [List.getElem?_take_of_lt (Nat.sub_pos_of_lt less), List.getElem?_drop]
    exact heading.mark
  exact isBlank_of_mem present (by decide)

end HeadingAt

/-! ### Sections -/

/-- `Chunk`: a slice of a text with its coordinates. -/
structure Chunk where
  chunkId : String
  text : String
  start : ℕ
  stop : ℕ
  deriving DecidableEq, Repr

/-- The two ends of a chunk. -/
def Chunk.span (c : Chunk) : ℕ × ℕ := (c.start, c.stop)

variable (digest : String → String)

/-- The chunk between two positions. -/
def chunkOf (text : String) (a b : ℕ) : Chunk where
  chunkId := .ofList ((digest (toString a ++ ":" ++ slice text a b)).toList.take 12)
  text := slice text a b
  start := a
  stop := b

/-- The two ends of a text and the starts of its headings, in order. -/
def positions (text : String) : List ℕ :=
  (insert 0 (insert text.length (headingStarts text).toFinset)).sort

/-- `section_chunks`. -/
def sectionChunks (text : String) : List Chunk :=
  (((positions text).zip (positions text).tail).filter fun s => !isBlank (slice text s.1 s.2)).map
    fun s => chunkOf digest text s.1 s.2

/-- A group of the target size. -/
def FitsTarget (target : ℤ) (start stop : ℕ) : Prop := (stop : ℤ) - start ≤ target

instance (target : ℤ) : DecidableRel (FitsTarget target) :=
  fun start stop => inferInstanceAs (Decidable ((stop : ℤ) - start ≤ target))

/-- `bounded_chunks`. The last group grows as long as the next section fits into it. -/
def boundedChunks (text : String) (target : ℤ) : List Chunk :=
  (pack (FitsTarget target) ((sectionChunks digest text).map Chunk.span)).map
    fun group => chunkOf digest text group.1 group.2

/-- A place where a text may be cut. -/
def Boundary (text : String) (i : ℕ) : Prop := i = 0 ∨ i = text.length ∨ HeadingAt text i

/-- Neighbouring boundaries. -/
structure IsSection (text : String) (a b : ℕ) : Prop where
  less : a < b
  start : Boundary text a
  stop : Boundary text b
  inside : ∀ i, Boundary text i → i ≤ a ∨ b ≤ i

/-- Where the first section starts that is not blank. -/
def lead (text : String) : ℕ :=
  match positions text with
  | _ :: first :: _ => if isBlank (slice text 0 first) then first else 0
  | _ => 0

section Sections

variable (text : String) {i : ℕ}

theorem mem_positions : i ∈ positions text ↔ Boundary text i := by
  simp [positions, Boundary, mem_headingStarts]

theorem Boundary.le_length {text : String} (boundary : Boundary text i) : i ≤ text.length := by
  rcases boundary with rfl | rfl | heading
  · exact Nat.zero_le _
  · exact le_refl _
  · exact heading.lt_length.le

/-- The positions rise from the beginning of the text to its end. -/
theorem exists_positions : ∃ points, positions text = 0 :: points ∧
    (0 :: points).Pairwise (· < ·) ∧ (0 :: points).getLast (List.cons_ne_nil 0 points) =
      text.length := by
  have sorted : (positions text).Pairwise (· < ·) := (Finset.sortedLT_sort _).pairwise
  have zero : 0 ∈ positions text := (mem_positions text).mpr (.inl rfl)
  have last : text.length ∈ positions text := (mem_positions text).mpr (.inr (.inl rfl))
  cases h : positions text with
  | nil => simp [h] at zero
  | cons p points =>
    rw [h] at sorted zero last
    obtain rfl : p = 0 := by
      rcases List.mem_cons.mp zero with same | later
      · exact same.symm
      · exact absurd (List.rel_of_pairwise_cons sorted later) (Nat.not_lt_zero p)
    refine ⟨points, rfl, sorted, le_antisymm ?_ ?_⟩
    · apply Boundary.le_length
      rw [← mem_positions, h]
      exact List.getLast_mem _
    · exact (sorted.imp le_of_lt).rel_getLast last

/-- A section other than the first one begins with a heading. -/
theorem headingAt_of_section {a b : ℕ} (s : IsSection text a b) (positive : 0 < a) :
    HeadingAt text a := by
  rcases s.start with rfl | rfl | heading
  · exact absurd positive (lt_irrefl 0)
  · exact absurd s.stop.le_length s.less.not_ge
  · exact heading

theorem isSection_of_mem_zip {s : ℕ × ℕ}
    (member : s ∈ (positions text).zip (positions text).tail) : IsSection text s.1 s.2 := by
  obtain ⟨points, all, sorted, -⟩ := exists_positions text
  have point : ∀ i ∈ 0 :: points, Boundary text i := fun i listed =>
    (mem_positions text).mp (all ▸ listed)
  rw [all, List.tail_cons] at member
  refine ⟨((Tiles.of_pairwise sorted).bounds member).2.1, point _ (List.of_mem_zip member).1,
    point _ (.tail _ (List.of_mem_zip member).2), fun i boundary => ?_⟩
  exact Tiles.le_or_le_of_mem_zip sorted member (all ▸ (mem_positions text).mpr boundary)

theorem span_sectionChunks : (sectionChunks digest text).map Chunk.span =
    ((positions text).zip (positions text).tail).filter fun s => !isBlank (slice text s.1 s.2) := by
  rw [sectionChunks, List.map_map]
  exact List.map_id _

/-- A chunk of a section is a section. -/
theorem isSection_of_mem {s : ℕ × ℕ} (member : s ∈ (sectionChunks digest text).map Chunk.span) :
    IsSection text s.1 s.2 := by
  rw [span_sectionChunks] at member
  exact isSection_of_mem_zip text (List.mem_filter.mp member).1

/-- **Only the first section can be blank**, so the others lie end to end. -/
theorem tiles_sectionChunks :
    Tiles (lead text) ((sectionChunks digest text).map Chunk.span) text.length := by
  rw [span_sectionChunks]
  obtain ⟨points, all, sorted, last⟩ := exists_positions text
  have found : ∀ s ∈ (0 :: points).zip points, IsSection text s.1 s.2 := by
    intro s member
    apply isSection_of_mem_zip
    rwa [all]
  rw [lead, all, ← last, List.tail_cons]
  cases points with
  | nil => exact .nil 0
  | cons first points =>
    have positive : 0 < first := List.rel_of_pairwise_cons sorted (.head _)
    have rest := Tiles.of_pairwise sorted.of_cons
    -- From the second section on, there is a heading at the front.
    have solid : ((first :: points).zip points).filter (fun s => !isBlank (slice text s.1 s.2)) =
        (first :: points).zip points := by
      apply List.filter_eq_self.mpr
      intro s member
      have part := found s (.tail _ member)
      have later := positive.trans_le (rest.bounds member).1
      rw [(headingAt_of_section text part later).not_blank part.less]
      rfl
    rw [List.zip_cons_cons, List.filter_cons, solid,
      List.getLast_cons (List.cons_ne_nil first points)]
    dsimp only
    by_cases blank : isBlank (slice text 0 first) = true
    · rw [if_pos blank, blank]
      exact rest
    · rw [if_neg blank, Bool.eq_false_iff.mpr blank]
      exact .cons positive rest

/-- What comes before the first section is blank, and no heading is in it. -/
theorem lead_spec : Boundary text (lead text) ∧ isBlank (slice text 0 (lead text)) ∧
    ∀ i, HeadingAt text i → lead text ≤ i := by
  obtain ⟨points, all, sorted, last⟩ := exists_positions text
  have empty : isBlank (slice text 0 0) := by
    rw [slice_self]
    decide
  have point : ∀ i ∈ positions text, Boundary text i := fun i => (mem_positions text).mp
  rw [lead]
  rw [all] at point ⊢
  cases points with
  | nil => exact ⟨.inl rfl, empty, fun i _ => Nat.zero_le i⟩
  | cons first points =>
    dsimp only
    split_ifs with blank
    -- The text up to the first boundary is blank, and so holds no heading.
    · refine ⟨point first (.tail _ (.head _)), blank, fun i heading => ?_⟩
      have listed := (mem_positions text).mpr (.inr (.inr heading))
      rw [all] at listed
      rcases List.mem_cons.mp listed with rfl | listed
      · have positive : 0 < first := List.rel_of_pairwise_cons sorted (.head _)
        rw [heading.not_blank positive] at blank
        cases blank
      · rcases List.mem_cons.mp listed with rfl | listed
        · exact le_refl _
        · exact (List.rel_of_pairwise_cons sorted.of_cons listed).le
    · exact ⟨.inl rfl, empty, fun i _ => Nat.zero_le i⟩

end Sections

/-! ### The chunks -/

/-- What the chunks of a text have to do with it. They are slices that lie end to end, and only
what comes before the first heading can be missing, if it is blank. They are cut at boundaries.
A chunk that is too large is one section, and the section after a chunk would have made it too
large. -/
structure ChunkLaw (text : String) (target : ℤ) (chunks : List Chunk) : Prop where
  slices : ∀ c ∈ chunks, c.text = slice text c.start c.stop
  adjacent : Tiles (lead text) (chunks.map Chunk.span) text.length
  blank : isBlank (slice text 0 (lead text))
  before : ∀ i, HeadingAt text i → lead text ≤ i
  whole : slice text 0 (lead text) ++ String.join (chunks.map Chunk.text) = text
  boundaries : ∀ c ∈ chunks, Boundary text c.start ∧ Boundary text c.stop
  large : ∀ c ∈ chunks, target < (c.stop : ℤ) - c.start → IsSection text c.start c.stop
  greedy : ∀ c ∈ chunks, ∀ e, IsSection text c.stop e → target < (e : ℤ) - c.start

section Law

variable (text : String) (target : ℤ)

theorem span_boundedChunks : (boundedChunks digest text target).map Chunk.span =
    pack (FitsTarget target) ((sectionChunks digest text).map Chunk.span) := by
  rw [boundedChunks, List.map_map]
  exact List.map_id _

theorem tiles_boundedChunks :
    Tiles (lead text) ((boundedChunks digest text target).map Chunk.span) text.length := by
  rw [span_boundedChunks]
  exact (tiles_sectionChunks digest text).pack _

/-- A section after the blank part is one of those that are put together. -/
theorem mem_sectionChunks {a b : ℕ} (s : IsSection text a b) (later : lead text ≤ a) :
    (a, b) ∈ (sectionChunks digest text).map Chunk.span := by
  have inside : a < text.length := s.less.trans_le s.stop.le_length
  obtain ⟨t, member, start, stop⟩ := (tiles_sectionChunks digest text).exists_mem later inside
  have found := isSection_of_mem digest text member
  have first : t.1 = a := le_antisymm start ((found.inside a s.start).resolve_right stop.not_ge)
  have second : t.2 = b := by
    apply le_antisymm
    · exact (found.inside b s.stop).resolve_left (first ▸ s.less.not_ge)
    · exact (s.inside t.2 found.stop).resolve_left stop.not_ge
  rw [← first, ← second]
  exact member

/-- **Chunking preserves the text**: the chunks of a text obey the law. -/
theorem boundedChunks_law : ChunkLaw text target (boundedChunks digest text target) := by
  obtain ⟨-, blank, before⟩ := lead_spec text
  have tiles := tiles_boundedChunks digest text target
  have grouped : ∀ c ∈ boundedChunks digest text target,
      c.span ∈ pack (FitsTarget target) ((sectionChunks digest text).map Chunk.span) :=
      fun c member => by
    rw [← span_boundedChunks]
    exact List.mem_map_of_mem member
  have slices : ∀ c ∈ boundedChunks digest text target, c.text = slice text c.start c.stop := by
    intro c member
    obtain ⟨group, -, rfl⟩ := List.mem_map.mp member
    rfl
  -- The ends of a chunk are ends of sections; a large chunk is one section.
  refine ⟨slices, tiles, blank, before, ?_, fun c member => ?_, fun c member big => ?_,
    fun c member e next => ?_⟩
  · have joined := slice_of_tiles text tiles
    rw [List.map_map] at joined
    rw [List.map_congr_left slices]
    exact (congrArg _ joined).trans
      ((slice_append text (Nat.zero_le _) tiles.le).trans (slice_all text))
  · obtain ⟨first, second⟩ := ends_of_mem_pack _ (grouped c member)
    obtain ⟨s, listed, start⟩ := List.mem_map.mp first
    obtain ⟨t, listed', stop⟩ := List.mem_map.mp second
    have starts := (isSection_of_mem digest text listed).start
    have stops := (isSection_of_mem digest text listed').stop
    rw [start] at starts
    rw [stop] at stops
    exact ⟨starts, stops⟩
  · have large := (fits_or_mem_of_mem_pack _ (grouped c member)).resolve_left (not_le.mpr big)
    exact isSection_of_mem digest text large
  · have later : lead text ≤ c.stop := by
      have bounds := tiles.bounds (List.mem_map_of_mem member)
      exact bounds.1.trans bounds.2.1.le
    have listed := mem_sectionChunks digest text next later
    exact not_le.mp ((tiles_sectionChunks digest text).not_fits_next _ (grouped c member) listed)

end Law

end AgentLabs.Retrieval
