import Mathlib.Data.List.DropRight
import Mathlib.Data.List.SplitBy
import Roster.Proofs.Input

/-!
# A slug joins the words of a name

The program collapses what a slug does not keep, trims hyphens and cuts. What comes of it is
stated here by the words of the name: its maximal runs of characters that a slug keeps.

* `Slug.runs`, `Slug.words` — the maximal runs of a text, and those that a slug keeps;
* `Slug.join`, `Slug.cut` — words with single hyphens between them, and the first part of such
  a text that a slug has room for;
* `Slug.Alternating`, `Slug.collapse_flatten` — words and gaps stand in turn, and collapsing
  makes one hyphen of each gap;
* `Slug.Spaced`, `Slug.Tidy` — how texts of joined words look; `Slug.join_words` says that every
  tidy text joins its words;
* `Slug.derive_eq` — the program joins the words and cuts;
* `slugify_joins_words` — that, and what follows from it.
-/

namespace Roster

namespace Slug

/-! ## Words -/

/-- Whether a slug keeps both characters or neither. -/
def alike (a b : Char) : Bool :=
  isWordChar a == isWordChar b

/-- The maximal runs of characters that are alike. -/
def runs (text : List Char) : List (List Char) :=
  text.splitBy alike

/-- Whether a run is of characters that a slug keeps. -/
def isWord (run : List Char) : Bool :=
  run.all isWordChar

/-- The maximal runs of characters that a slug keeps. -/
def words (text : List Char) : List (List Char) :=
  (runs text).filter isWord

/-- Words with a hyphen between any two. -/
def join (words : List (List Char)) : List Char :=
  ['-'].intercalate words

/-- The first part of a text that a slug has room for, without a hyphen at its end. -/
def cut (text : List Char) : List Char :=
  let kept := text.take maxLength
  if kept.getLast? = some '-' then kept.dropLast else kept

/-- A non-empty run of characters of one kind. -/
structure IsRun (run : List Char) : Prop where
  nonempty : run ≠ []
  alike : ∀ c ∈ run, isWordChar c = isWord run

/-- Runs in which words and gaps stand in turn. -/
structure Alternating (blocks : List (List Char)) : Prop where
  kinds : ∀ run ∈ blocks, IsRun run
  turns : blocks.IsChain fun a b => isWord a ≠ isWord b

variable {text rest run word : List Char} {blocks : List (List Char)}

theorem alike_iff {a b : Char} : alike a b = true ↔ isWordChar a = isWordChar b := by
  simp [alike]

theorem alike_head {c : Char} (h : (c :: rest).IsChain fun a b => alike a b = true) :
    ∀ d ∈ rest, isWordChar d = isWordChar c := by
  induction rest generalizing c with
  | nil => exact fun d hd => absurd hd List.not_mem_nil
  | cons d rest ih =>
    rw [List.isChain_cons_cons, alike_iff] at h
    obtain ⟨hcd, hrest⟩ := h
    intro e he
    rcases List.mem_cons.mp he with rfl | he
    · exact hcd.symm
    · exact (ih hrest e he).trans hcd.symm

/-- Neighbours that are alike make a run. -/
theorem isRun_of_chain (hne : run ≠ []) (h : run.IsChain fun a b => alike a b = true) :
    IsRun run := by
  obtain ⟨c, rest, rfl⟩ := List.exists_cons_of_ne_nil hne
  have hkind : ∀ d ∈ c :: rest, isWordChar d = isWordChar c := by
    intro d hd
    rcases List.mem_cons.mp hd with rfl | hd
    · rfl
    · exact alike_head h d hd
  have hword : isWord (c :: rest) = isWordChar c := by
    cases hc : isWordChar c with
    | true => exact List.all_eq_true.mpr fun d hd => (hkind d hd).trans hc
    | false => simp [isWord, hc]
  exact ⟨hne, fun d hd => (hkind d hd).trans hword.symm⟩

/-- The maximal runs of a text are words and gaps in turn. -/
theorem runs_alternating (text : List Char) : Alternating (runs text) := by
  have hruns : ∀ run ∈ runs text, IsRun run := fun run hrun =>
    isRun_of_chain (List.ne_nil_of_mem_splitBy hrun) (List.isChain_of_mem_splitBy hrun)
  refine ⟨hruns, ?_⟩
  refine (List.isChain_getLast_head_splitBy alike text).imp_of_mem_imp ?_
  rintro a b ha hb ⟨hane, hbne, hdiffer⟩ hsame
  have hlast := (hruns a ha).alike _ (List.getLast_mem hane)
  have hhead := (hruns b hb).alike _ (List.head_mem hbne)
  exact Bool.eq_false_iff.mp hdiffer (alike_iff.mpr (hlast.trans (hsame.trans hhead.symm)))

theorem flatten_runs (text : List Char) : (runs text).flatten = text :=
  List.flatten_splitBy alike text

theorem words_spec (text : List Char) :
    ∀ word ∈ words text, word ≠ [] ∧ ∀ c ∈ word, isWordChar c = true := by
  intro word hword
  obtain ⟨hrun, hkept⟩ := List.mem_filter.mp hword
  exact ⟨((runs_alternating text).kinds word hrun).nonempty, List.all_eq_true.mp hkept⟩

/-- A text has no word exactly if a slug keeps none of its characters. -/
theorem words_eq_nil : words text = [] ↔ ∀ c ∈ text, isWordChar c = false := by
  constructor
  · intro hnone c hc
    rw [← flatten_runs text] at hc
    obtain ⟨run, hrun, hmem⟩ := List.mem_flatten.mp hc
    have hgap := List.filter_eq_nil_iff.mp hnone run hrun
    exact (((runs_alternating text).kinds run hrun).alike c hmem).trans (Bool.eq_false_iff.mpr hgap)
  · intro hnone
    refine List.filter_eq_nil_iff.mpr ?_
    intro run hrun hkept
    obtain ⟨c, hc⟩ := List.exists_mem_of_ne_nil run ((runs_alternating text).kinds run hrun).nonempty
    have hmem : c ∈ text := flatten_runs text ▸ List.mem_flatten_of_mem hrun hc
    exact Bool.eq_false_iff.mp (hnone c hmem) (List.all_eq_true.mp hkept c hc)

/-! ## Joined words -/

theorem hyphen_not_kept : isWordChar '-' = false := by decide

/-- Words and single hyphens. -/
structure Spaced (text : List Char) : Prop where
  chars : ∀ c ∈ text, isWordChar c = true ∨ c = '-'
  single : text.IsChain fun a b => a = '-' → b ≠ '-'

/-- Words with single hyphens between them. -/
structure Tidy (text : List Char) : Prop extends Spaced text where
  first : text.head? ≠ some '-'
  last : text.getLast? ≠ some '-'

theorem ne_hyphen {c : Char} (h : isWordChar c = true) : c ≠ '-' := by
  rintro rfl
  exact absurd (h.symm.trans hyphen_not_kept) (by decide)

theorem tidy_nil : Tidy [] :=
  ⟨⟨fun _ hc => absurd hc List.not_mem_nil, .nil⟩, by decide, by decide⟩

theorem tidy_word (h : ∀ c ∈ word, isWordChar c = true) : Tidy word where
  chars := fun c hc => .inl (h c hc)
  single := by
    refine List.Pairwise.isChain (List.pairwise_of_forall_mem_list ?_)
    exact fun _ _ b hb _ => ne_hyphen (h b hb)
  first := fun hfirst => ne_hyphen (h '-' (List.mem_of_head? hfirst)) rfl
  last := fun hlast => ne_hyphen (h '-' (List.mem_of_getLast? hlast)) rfl

/-- Tidy texts stay tidy with a hyphen between them. -/
theorem Tidy.append {left right : List Char} (hleft : Tidy left) (hright : Tidy right)
    (hne : left ≠ []) (hne' : right ≠ []) : Tidy (left ++ '-' :: right) where
  chars := by
    intro c hc
    rcases List.mem_append.mp hc with hc | hc
    · exact hleft.chars c hc
    · rcases List.mem_cons.mp hc with rfl | hc
      · exact .inr rfl
      · exact hright.chars c hc
  single := by
    have hafter : ('-' :: right).IsChain fun a b => a = '-' → b ≠ '-' := by
      refine List.isChain_cons.mpr ⟨?_, hright.single⟩
      rintro b hb - rfl
      exact hright.first hb
    refine List.isChain_append.mpr ⟨hleft.single, hafter, ?_⟩
    rintro a ha b - rfl
    exact absurd ha hleft.last
  first := by
    rw [List.head?_append_of_ne_nil _ hne]
    exact hleft.first
  last := by
    rw [List.getLast?_append_of_ne_nil _ (List.cons_ne_nil _ _),
      List.getLast?_cons_of_ne_nil hne']
    exact hright.last

theorem join_cons (word : List Char) {words : List (List Char)} (hne : words ≠ []) :
    join (word :: words) = word ++ '-' :: join words := by
  rw [join, List.intercalate_cons_of_ne_nil hne, List.append_assoc]
  rfl

theorem join_eq_nil {words : List (List Char)} (h : ∀ word ∈ words, word ≠ []) :
    join words = [] ↔ words = [] := by
  cases words with
  | nil => exact iff_of_true rfl rfl
  | cons word words =>
    refine iff_of_false ?_ (List.cons_ne_nil _ _)
    cases words with
    | nil => simpa [join] using h word List.mem_cons_self
    | cons next words => simp [join_cons]

/-- Joined words are tidy. -/
theorem join_tidy {words : List (List Char)}
    (h : ∀ word ∈ words, word ≠ [] ∧ ∀ c ∈ word, isWordChar c = true) : Tidy (join words) := by
  induction words with
  | nil => exact tidy_nil
  | cons word words ih =>
    obtain ⟨⟨hne, hchars⟩, hrest⟩ := List.forall_mem_cons.mp h
    cases words with
    | nil => simpa [join] using tidy_word hchars
    | cons next words =>
      rw [join_cons _ (List.cons_ne_nil _ _)]
      refine (tidy_word hchars).append (ih hrest) hne ?_
      exact mt (join_eq_nil fun word hword => (hrest word hword).1).mp (List.cons_ne_nil _ _)

/-! ## Collapsing -/

/-- A word is left alone. -/
theorem collapse_word (h : ∀ c ∈ word, isWordChar c = true) (rest : List Char) :
    collapse (word ++ rest) = word ++ collapse rest := by
  induction word with
  | nil => rfl
  | cons c word ih =>
    obtain ⟨hc, hword⟩ := List.forall_mem_cons.mp h
    rw [List.cons_append, collapse, if_pos hc, ih hword, List.cons_append]

theorem collapse_cons_gap {c : Char} (hc : isWordChar c = false)
    (hrest : (collapse rest).head? ≠ some '-') : collapse (c :: rest) = '-' :: collapse rest := by
  rw [collapse, if_neg (Bool.eq_false_iff.mp hc)]
  split
  · rename_i tail heq
    exact absurd (congrArg List.head? heq) hrest
  · rfl

/-- A gap before anything but a gap becomes one hyphen. -/
theorem collapse_gap (hne : run ≠ []) (h : ∀ c ∈ run, isWordChar c = false)
    (hrest : (collapse rest).head? ≠ some '-') :
    collapse (run ++ rest) = '-' :: collapse rest := by
  induction run with
  | nil => exact absurd rfl hne
  | cons c run ih =>
    obtain ⟨hc, hrun⟩ := List.forall_mem_cons.mp h
    cases run with
    | nil => exact collapse_cons_gap hc hrest
    | cons d run =>
      have htail := ih (List.cons_ne_nil _ _) hrun
      rw [List.cons_append, collapse, if_neg (Bool.eq_false_iff.mp hc), htail]
      rfl

/-- What collapsing makes of runs: a hyphen of each gap. -/
def spread (runs : List (List Char)) : List Char :=
  runs.flatMap fun run => if isWord run then run else ['-']

theorem spread_word (h : isWord run = true) : spread (run :: blocks) = run ++ spread blocks := by
  simp [spread, h]

theorem spread_gap (h : isWord run = false) : spread (run :: blocks) = '-' :: spread blocks := by
  simp [spread, h]

theorem Alternating.tail (h : Alternating (run :: blocks)) : Alternating blocks :=
  ⟨fun other hother => h.kinds other (List.mem_cons_of_mem _ hother), h.turns.tail⟩

/-- After a gap comes a word, or nothing. -/
theorem Alternating.head_word (h : Alternating (run :: blocks)) (hgap : isWord run = false) :
    ∀ next ∈ blocks.head?, isWord next = true := by
  intro next hnext
  have hturn := (List.isChain_cons.mp h.turns).1 next hnext
  rw [hgap] at hturn
  exact eq_true_of_ne_false hturn.symm

/-- What runs come to starts with a hyphen only if they start with a gap. -/
theorem head_spread (h : Alternating blocks) (hword : ∀ next ∈ blocks.head?, isWord next = true) :
    (spread blocks).head? ≠ some '-' := by
  cases blocks with
  | nil => decide
  | cons next blocks =>
    have hnext := hword next (Option.mem_some_self next)
    have hrun := h.kinds next List.mem_cons_self
    rw [spread_word hnext, List.head?_append_of_ne_nil _ hrun.nonempty]
    intro hhead
    exact ne_hyphen ((hrun.alike '-' (List.mem_of_head? hhead)).trans hnext) rfl

/-- Collapsing makes one hyphen of each gap. -/
theorem collapse_flatten (h : Alternating blocks) : collapse blocks.flatten = spread blocks := by
  induction blocks with
  | nil => rfl
  | cons run blocks ih =>
    have hrun := h.kinds run List.mem_cons_self
    have hrest := ih h.tail
    rw [List.flatten_cons]
    cases hkind : isWord run with
    | true =>
      rw [collapse_word (fun c hc => (hrun.alike c hc).trans hkind), hrest, spread_word hkind]
    | false =>
      have hhead := head_spread h.tail (h.head_word hkind)
      rw [collapse_gap hrun.nonempty (fun c hc => (hrun.alike c hc).trans hkind) (hrest ▸ hhead),
        hrest, spread_gap hkind]

/-- Runs come to their words, joined, with a hyphen before them for a gap at the beginning and
one after them for a gap at the end. -/
theorem spread_eq (h : Alternating blocks) : ∃ trail,
    spread blocks = (if blocks.head?.all isWord then [] else ['-']) ++
      join (blocks.filter isWord) ++ trail ∧
    (trail = [] ∨ trail = ['-'] ∧ blocks.filter isWord ≠ []) := by
  induction blocks with
  | nil => exact ⟨[], rfl, .inl rfl⟩
  | cons run blocks ih =>
    obtain ⟨trail, hspread, htrail⟩ := ih h.tail
    cases hkind : isWord run with
    | false =>
      have hlead : blocks.head?.all isWord = true := Option.all_eq_true _ _ |>.mpr (h.head_word hkind)
      rw [hlead, if_pos rfl, List.nil_append] at hspread
      refine ⟨trail, ?_, ?_⟩
      · simp [spread_gap hkind, hspread, hkind]
      · simpa [hkind] using htrail
    | true =>
      rw [spread_word hkind, List.filter_cons_of_pos hkind, List.head?_cons, Option.all_some, hkind,
        if_pos rfl, List.nil_append]
      cases blocks with
      | nil => exact ⟨[], by simp [spread, join], .inl rfl⟩
      | cons next blocks =>
        -- a gap comes next, which is written before the words after it, or at the end
        have hgap : isWord next = false := by
          have hturn := (List.isChain_cons_cons.mp h.turns).1
          rw [hkind] at hturn
          exact eq_false_of_ne_true hturn.symm
        rw [List.head?_cons, Option.all_some, hgap, if_neg Bool.false_ne_true] at hspread
        by_cases hnone : (next :: blocks).filter isWord = []
        · obtain rfl : trail = [] := htrail.resolve_right fun hright => hright.2 hnone
          rw [hnone] at hspread ⊢
          exact ⟨['-'], by simp [hspread, join], .inr ⟨rfl, List.cons_ne_nil _ _⟩⟩
        · refine ⟨trail, ?_, htrail.imp_right fun hright => ⟨hright.1, List.cons_ne_nil _ _⟩⟩
          rw [hspread, join_cons _ hnone]
          simp

/-! ## Trimming and cutting -/

/-- Whether a character is a hyphen. -/
abbrev isHyphen (c : Char) : Bool := c == '-'

/-- The text that the program cuts. -/
def beforeCut (name : List Char) : List Char :=
  Text.dropEndWhile isHyphen ((collapse (Text.lowercase name)).dropWhile isHyphen)

theorem derive_eq_beforeCut (name : List Char) :
    derive name = Text.dropEndWhile isHyphen ((beforeCut name).take maxLength) := rfl

/-- A tidy text has no hyphen at its beginning, whatever comes after it. -/
theorem Tidy.dropWhile (h : Tidy text) (hne : text ≠ []) (more : List Char) :
    (text ++ more).dropWhile isHyphen = text ++ more := by
  refine Text.dropWhile_eq_self ?_
  intro c hc
  rw [List.head?_append_of_ne_nil _ hne] at hc
  refine beq_false_of_ne ?_
  rintro rfl
  exact h.first hc

theorem Tidy.dropEndWhile (h : Tidy text) : Text.dropEndWhile isHyphen text = text := by
  refine Text.dropEndWhile_eq_self ?_
  intro c hc
  refine beq_false_of_ne ?_
  rintro rfl
  exact h.last hc

/-- Without the hyphens at both ends, a collapsed text is its words, joined. -/
theorem trim_collapse (text : List Char) :
    Text.dropEndWhile isHyphen ((collapse text).dropWhile isHyphen) = join (words text) := by
  have halternating := runs_alternating text
  have htidy := join_tidy (words_spec text)
  have hjoin : join (words text) = [] ↔ words text = [] :=
    join_eq_nil fun word hword => (words_spec text word hword).1
  obtain ⟨trail, hspread, htrail⟩ := spread_eq halternating
  have hcollapse := collapse_flatten halternating
  rw [flatten_runs, hspread] at hcollapse
  have hlead : (collapse text).dropWhile isHyphen =
      (join (words text) ++ trail).dropWhile isHyphen := by
    rw [hcollapse, List.append_assoc]
    split <;> rfl
  rw [hlead]
  rcases htrail with rfl | ⟨rfl, hne⟩
  · rw [List.append_nil]
    by_cases hnone : join (words text) = []
    · rw [hnone]
      rfl
    · have hdrop := htidy.dropWhile hnone []
      rw [List.append_nil] at hdrop
      rw [hdrop, htidy.dropEndWhile]
  · rw [htidy.dropWhile (mt hjoin.mp hne)]
    show (join (words text) ++ ['-']).rdropWhile isHyphen = _
    rw [List.rdropWhile_concat, if_pos (beq_self_eq_true '-')]
    exact htidy.dropEndWhile

theorem Spaced.take (h : Spaced text) (n : Nat) : Spaced (text.take n) :=
  ⟨fun c hc => h.chars c (List.mem_of_mem_take hc), h.single.take n⟩

/-- A text with single hyphens has one hyphen at most at its end. -/
theorem Spaced.dropEndWhile (h : Spaced text) : Text.dropEndWhile isHyphen text =
    if text.getLast? = some '-' then text.dropLast else text := by
  induction text using List.reverseRecOn with
  | nil => rfl
  | append_singleton init c _ =>
    show (init ++ [c]).rdropWhile isHyphen = _
    rw [List.rdropWhile_concat, List.getLast?_concat, List.dropLast_concat]
    by_cases hc : c = '-'
    · subst hc
      rw [if_pos rfl, if_pos (beq_self_eq_true '-')]
      refine Text.dropEndWhile_eq_self ?_
      intro d hd
      have hneighbours := (List.isChain_append.mp h.single).2.2 d hd '-' rfl
      exact beq_false_of_ne fun heq => hneighbours heq rfl
    · rw [if_neg (by simpa using hc), if_neg (by simpa using hc)]

/-- The program joins the words of the lowercase form and cuts. -/
theorem derive_eq (name : List Char) :
    derive name = cut (join (words (Text.lowercase name))) := by
  have hspaced := (join_tidy (words_spec (Text.lowercase name))).toSpaced
  rw [derive_eq_beforeCut, beforeCut, trim_collapse, (hspaced.take maxLength).dropEndWhile]
  rfl

/-! ## What a slug looks like -/

/-- A tidy text collapses to itself. -/
theorem Spaced.collapse_eq (h : Spaced text) : collapse text = text := by
  induction text with
  | nil => rfl
  | cons c rest ih =>
    have hrest : collapse rest = rest :=
      ih ⟨fun d hd => h.chars d (List.mem_cons_of_mem _ hd), h.single.tail⟩
    rcases h.chars c List.mem_cons_self with hc | rfl
    · rw [collapse, if_pos hc, hrest]
    · have hnext : (collapse rest).head? ≠ some '-' := by
        rw [hrest]
        intro hhead
        exact (List.isChain_cons.mp h.single).1 '-' hhead rfl rfl
      rw [collapse_cons_gap hyphen_not_kept hnext, hrest]

/-- A tidy text joins its words. -/
theorem join_words (h : Tidy text) : join (words text) = text := by
  rw [← trim_collapse, h.collapse_eq]
  cases text with
  | nil => rfl
  | cons c rest =>
    have hdrop := h.dropWhile (List.cons_ne_nil c rest) []
    rw [List.append_nil] at hdrop
    rw [hdrop, h.dropEndWhile]

theorem cut_tidy (h : Tidy text) : Tidy (cut text) := by
  have hspaced := h.toSpaced.take maxLength
  have hcut : cut text = Text.dropEndWhile isHyphen (text.take maxLength) :=
    hspaced.dropEndWhile.symm
  have hfront : cut text <+: text :=
    hcut ▸ (Text.dropEndWhile_prefix isHyphen _).trans (List.take_prefix _ _)
  refine ⟨⟨fun c hc => h.chars c (hfront.subset hc), h.single.prefix hfront⟩, ?_, ?_⟩
  · intro hfirst
    obtain ⟨rest, hrest⟩ := hfront
    refine h.first ?_
    rw [← hrest, List.head?_append, hfirst, Option.some_or]
  · intro hlast
    rw [hcut] at hlast
    exact absurd (Text.getLast_dropEndWhile hlast) (by decide)

theorem length_cut (text : List Char) : (cut text).length ≤ maxLength := by
  have htake := List.length_take_le maxLength text
  unfold cut
  dsimp only
  split
  · rw [List.length_dropLast]
    omega
  · exact htake

/-- A tidy text that a slug has room for is left alone. -/
theorem cut_eq_self (h : Tidy text) (hlength : text.length ≤ maxLength) : cut text = text := by
  rw [cut, List.take_of_length_le hlength]
  exact if_neg h.last

/-- Nothing is left of a tidy text only if there was nothing. -/
theorem cut_eq_nil (h : Tidy text) : cut text = [] ↔ text = [] := by
  constructor
  · intro hnone
    have hcut := (h.toSpaced.take maxLength).dropEndWhile
    cases text with
    | nil => rfl
    | cons c rest =>
      -- the first character is no hyphen and is not dropped
      have hall := List.rdropWhile_eq_nil_iff.mp (hcut.trans hnone) c List.mem_cons_self
      exact absurd (congrArg some (beq_iff_eq.mp hall)) h.first
  · rintro rfl
    rfl

/-- The characters of slugs are among the first 128, and in lowercase. -/
theorem slugChar_ascii {c : Char} (h : isWordChar c = true ∨ c = '-') :
    c.toNat < 128 ∧ c.toLower = c := by
  have haddress : Email.isAddressChar c = true := by
    rcases h with h | rfl
    · simp only [isWordChar, Bool.or_eq_true] at h
      rcases h with h | h <;> simp [Email.isAddressChar, Email.isLocalChar, Email.isLetter, h]
    · decide
  exact ⟨Email.isAddressChar_toNat haddress, (Email.isAddressChar_plain haddress).2⟩

/-- Lowercase leaves a tidy text alone. -/
theorem Tidy.lowercase (h : Tidy text) : Text.lowercase text = text := by
  rw [Text.lowercase, Email.lowerFrom_ascii fun c hc => (slugChar_ascii (h.chars c hc)).1]
  exact (List.map_congr_left fun c hc => (slugChar_ascii (h.chars c hc)).2).trans (List.map_id _)

theorem derive_tidy (name : List Char) : Tidy (derive name) := by
  rw [derive_eq]
  exact cut_tidy (join_tidy (words_spec _))

/-- A slug is its own slug. -/
theorem derive_derive (name : List Char) : derive (derive name) = derive name := by
  have htidy := derive_tidy name
  have hlength : (derive name).length ≤ maxLength := by
    rw [derive_eq]
    exact length_cut _
  rw [derive_eq (derive name), htidy.lowercase, join_words htidy, cut_eq_self htidy hlength]

/-- Nothing is left of a name exactly if its lowercase form has no word. -/
theorem derive_eq_nil (name : List Char) :
    derive name = [] ↔ ∀ c ∈ Text.lowercase name, isWordChar c = false := by
  have hspec := words_spec (Text.lowercase name)
  rw [derive_eq, cut_eq_nil (join_tidy hspec), join_eq_nil fun word hword => (hspec word hword).1,
    words_eq_nil]

/-! ## Bytes -/

/-- In ASCII, a text has as many bytes as characters. -/
theorem utf8ByteSize_ascii (h : ∀ c ∈ text, c.toNat < 128) :
    (String.ofList text).utf8ByteSize = text.length := by
  induction text with
  | nil => rfl
  | cons c rest ih =>
    obtain ⟨hc, hrest⟩ := List.forall_mem_cons.mp h
    have hsize : c.utf8Size = 1 :=
      Char.utf8Size_eq_one_iff.mpr (UInt32.le_iff_toNat_le.mpr (Nat.le_of_lt_succ hc))
    rw [String.ofList_cons, String.utf8ByteSize_append, String.utf8ByteSize_singleton, hsize, ih hrest,
      List.length_cons, Nat.add_comm]

/-- So a cut between bytes is one between characters. -/
theorem extract_ascii (h : ∀ c ∈ text, c.toNat < 128) {n : Nat} (hn : n ≤ text.length) :
    String.Pos.Raw.IsValid (String.ofList text) ⟨n⟩ ∧
      (String.ofList text).toByteArray.extract 0 n =
        (String.ofList (text.take n)).toByteArray := by
  have hsize : (String.ofList (text.take n)).utf8ByteSize = n := by
    rw [utf8ByteSize_ascii fun c hc => h c (List.mem_of_mem_take hc), List.length_take_of_le hn]
  have hsplit : String.ofList text = String.ofList (text.take n) ++ String.ofList (text.drop n) := by
    rw [← String.ofList_append, List.take_append_drop]
  constructor
  · refine String.Pos.Raw.isValid_iff_exists_append.mpr ⟨_, _, hsplit, ?_⟩
    exact String.Pos.Raw.ext hsize.symm
  · rw [hsplit, String.toByteArray_append]
    exact ByteArray.extract_append_eq_left (hsize.symm.trans String.size_toByteArray.symm)

end Slug

/-- A slug is the words of the lowercase name, joined by single hyphens and cut. So it is short
enough and joins words itself, it is empty exactly if the lowercase name has no word, the cut
falls between two characters of the text that is cut, and a slug is its own slug. -/
theorem slugify_joins_words (name : String) :
    let lowered := Text.lowercase name.toList
    let uncut := Slug.beforeCut name.toList
    let slug := slugify name
    slug = String.ofList (Slug.cut (Slug.join (Slug.words lowered))) ∧
      slug.length ≤ Slug.maxLength ∧
      (∃ words, slug.toList = Slug.join words ∧
        ∀ word ∈ words, word ≠ [] ∧ ∀ c ∈ word, Slug.isWordChar c = true) ∧
      (slug = "" ↔ ∀ c ∈ lowered, Slug.isWordChar c = false) ∧
      ((String.ofList uncut).utf8ByteSize = uncut.length ∧ ∀ n ≤ uncut.length,
        String.Pos.Raw.IsValid (String.ofList uncut) ⟨n⟩ ∧
          (String.ofList uncut).toByteArray.extract 0 n =
            (String.ofList (uncut.take n)).toByteArray) ∧
      slugify slug = slug := by
  intro lowered uncut slug
  have htoList : slug.toList = Slug.derive name.toList := String.toList_ofList
  have hascii : ∀ c ∈ uncut, c.toNat < 128 := by
    have huncut : uncut = Slug.join (Slug.words lowered) := Slug.trim_collapse lowered
    intro c hc
    rw [huncut] at hc
    exact (Slug.slugChar_ascii ((Slug.join_tidy (Slug.words_spec lowered)).chars c hc)).1
  refine ⟨congrArg String.ofList (Slug.derive_eq name.toList), ?_, ?_, ?_, ?_, ?_⟩
  · rw [← String.length_toList, htoList, Slug.derive_eq]
    exact Slug.length_cut _
  · refine ⟨Slug.words slug.toList, ?_, Slug.words_spec _⟩
    rw [htoList, Slug.join_words (Slug.derive_tidy name.toList)]
  · rw [← Slug.derive_eq_nil, ← htoList, String.toList_eq_nil_iff]
  · exact ⟨Slug.utf8ByteSize_ascii hascii, fun n hn => Slug.extract_ascii hascii hn⟩
  · show String.ofList (Slug.derive slug.toList) = String.ofList (Slug.derive name.toList)
    rw [htoList, Slug.derive_derive]

/-- An accented letter is a gap, and so is any run of other characters. -/
example : slugify " Café -- Crew 9! " = "caf-crew-9" := by decide +kernel

end Roster
