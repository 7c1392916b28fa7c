import Cadence.Proofs.Creating
import Cadence.Proofs.Pieces
import Cadence.Proofs.Replies
import Cadence.Proofs.Rounding

/-!
# Pages

The pages of a store are its tasks cut into runs of the page size. Their number is the number of
tasks divided by the page size, rounded to a double and then up to an integer; below `2 ^ 53` tasks
no rounding is seen in it. The lines that ask for one page after the other show each task once.
-/

namespace Cadence

namespace Number.Binary64

/-! ## Rounding a quotient up -/

def ceiling? (x : Binary64) : Option Int :=
  x.toRat?.map (⌈·⌉)

variable {x : Binary64} {q : ℚ}

theorem Shows.ceiling? (h : x.Shows q) : x.ceiling? = some ⌈q⌉ := by
  rw [Binary64.ceiling?, h.toRat?, Option.map_some]

/-- What is known of a double that may have been infinite. -/
theorem Shows.of_infinity_or {P : ℚ → Prop} (h : x.Shows q)
    (hor : x = infinity false ∨ ∃ r, x.Shows r ∧ P r) : P q := by
  have hq := h.toRat?
  obtain rfl | ⟨r, hr, hP⟩ := hor
  · cases hq
  · cases hq.symm.trans hr.toRat?
    exact hP

theorem exists_isDouble {k : Nat} (hpos : 1 ≤ k) (hmax : k < 2 ^ 53) :
    ∃ N g, IsDouble N g ∧ (N : ℚ) * 2 ^ g = k := by
  have hlog : k.log2 < 53 := (Nat.log2_lt (by omega)).2 hmax
  obtain ⟨e, he⟩ : ∃ e, k.log2 + e = 52 := ⟨52 - k.log2, by omega⟩
  refine ⟨k * 2 ^ e, -e, ⟨?_, ?_, by omega, by omega⟩, ?_⟩
  · calc 2 ^ 52 = 2 ^ k.log2 * 2 ^ e := by rw [← Nat.pow_add, he]
      _ ≤ k * 2 ^ e := Nat.mul_le_mul_right _ (Nat.log2_self_le (by omega))
  · calc k * 2 ^ e < 2 ^ (k.log2 + 1) * 2 ^ e :=
          Nat.mul_lt_mul_of_pos_right Nat.lt_log2_self (Nat.two_pow_pos e)
      _ = 2 ^ 53 := by rw [← Nat.pow_add, Nat.add_right_comm, he]
  · rw [zpow_neg, zpow_natCast]
    push_cast
    field_simp

/-- A quotient that exceeds an integer still does when it is rounded. The part of a page that is
left over is at least one in `size`, and half of what the last bit is worth is less than that. -/
theorem lt_of_shows_ofRatio {n size k : Nat} (hn : n < 2 ^ 53) (hsize : 1 ≤ size)
    (hmax : size ≤ 2 ^ 53) (hk : k * size < n) (hq : (ofRatio false n size).Shows q) :
    (k : ℚ) < q := by
  have hsize' : (0 : ℚ) < size := Nat.cast_pos.2 hsize
  rcases Nat.eq_zero_or_pos k with rfl | hpos
  · -- a task is at least a 2 ^ 53rd of a page
    have hdouble : IsDouble (2 ^ 52) (-105) := by decide
    have hratio : ((2 ^ 52 : ℕ) : ℚ) * 2 ^ (-105 : Int) ≤ n / size := by
      have hle : (size : ℚ) ≤ 2 ^ 53 := mod_cast hmax
      have hone : (1 : ℚ) ≤ n := mod_cast (by omega : 1 ≤ n)
      calc ((2 ^ 52 : ℕ) : ℚ) * 2 ^ (-105 : Int) = 1 / 2 ^ 53 := by norm_num
        _ ≤ n / size := div_le_div₀ (by linarith) hone hsize' hle
    have hlow := hq.of_infinity_or (le_shows_ofRatio hdouble hsize hratio)
    rw [Nat.cast_zero]
    exact lt_of_lt_of_le (by positivity) hlow
  · have hkn : k < 2 ^ 53 := by
      have := Nat.mul_le_mul_left k hsize
      omega
    obtain ⟨N, g, hdouble, hvalue⟩ := exists_isDouble hpos hkn
    rw [← hvalue]
    apply hq.of_infinity_or
    apply lt_shows_ofRatio hdouble hsize
    have hunit : (size : ℚ) * 2 ^ g < 2 := by
      have hfloor : (2 : ℚ) ^ (52 + g) ≤ k := hvalue ▸ two_zpow_le g hdouble.low
      rw [zpow_add₀ two_ne_zero] at hfloor
      have hprod : (k : ℚ) * size < 2 ^ 53 := mod_cast hk.trans hn
      have hscaled := mul_le_mul_of_nonneg_right hfloor hsize'.le
      norm_num at hscaled hprod
      linarith
    have hnext : (k : ℚ) * size + 1 ≤ n := mod_cast hk
    rw [lt_div_iff₀ hsize', add_mul, hvalue]
    linarith

/-- Rounding the quotient to a double before it is rounded up makes no difference. -/
theorem ceiling?_ofRatio {n size : Nat} (hn : n < 2 ^ 53) (hsize : 1 ≤ size)
    (hmax : size ≤ 2 ^ 53) :
    (ofRatio false n size).ceiling? = some (((n + size - 1) / size : ℕ) : Int) := by
  rcases Nat.eq_zero_or_pos n with rfl | hpos
  · have hzero : (ofRatio false 0 size).Shows 0 := ⟨0, -1074, rfl, by simp⟩
    rw [hzero.ceiling?, Nat.zero_add, Nat.div_eq_of_lt (by omega)]
    simp
  obtain ⟨k, hk⟩ : ∃ k, (n - 1) / size = k := ⟨_, rfl⟩
  have hpages : (n + size - 1) / size = k + 1 := by
    rw [← hk, ← Nat.add_div_right _ hsize]
    congr 1
    omega
  have hlow : k * size < n := by
    have := Nat.div_mul_le_self (n - 1) size
    rw [hk] at this
    omega
  have hhigh : n ≤ (k + 1) * size := by
    have := (Nat.div_lt_iff_lt_mul hsize).1 (Nat.lt_add_one_of_le hk.le)
    omega
  have hkn : k < n := by
    have := Nat.mul_le_mul_left k hsize
    omega
  obtain ⟨N, g, hdouble, hvalue⟩ := exists_isDouble (k := k + 1) (by omega) (by omega)
  have hratio : (n : ℚ) / size < (N + 1 / 2) * 2 ^ g := by
    have hle : (n : ℚ) / size ≤ N * 2 ^ g := by
      rw [hvalue, div_le_iff₀ (Nat.cast_pos.2 hsize)]
      exact mod_cast hhigh
    have hunit : (0 : ℚ) < 2 ^ g := by positivity
    linarith
  obtain ⟨q, hq, hle⟩ := shows_ofRatio_le hdouble hsize hratio
  have hlt := lt_of_shows_ofRatio hn hsize hmax hlow hq
  rw [hq.ceiling?, hpages, Option.some.injEq, Int.ceil_eq_iff]
  rw [hvalue] at hle
  push_cast at hle ⊢
  exact ⟨by linarith, hle⟩

end Number.Binary64

namespace Store

open Number

/-! ## The pages of a store -/

/-- Pages `0` to `totalPages - 1` cut the tasks into parts of at most `size` tasks. -/
structure Paged (s : Store) (size : Nat) : Prop where
  /-- The pages are as many as the quotient says that is rounded to a double and then up. -/
  rounded : (Binary64.ofRatio false s.size size).ceiling? = some (s.totalPages size : Int)
  filled : ∀ p < s.totalPages size, s.page p size ≠ [] ∧ (s.page p size).length ≤ size
  whole : (List.range (s.totalPages size)).flatMap (fun p : Nat => s.page p size) = s.tasks
  outside : ∀ p : Int, p < 0 ∨ s.totalPages size ≤ p → s.page p size = []

variable {size : Nat}

theorem page_eq (s : Store) (hsize : 1 ≤ size) (p : Nat) :
    s.page p size = (s.tasks.drop (p * size)).take size := by
  rw [page, if_neg (by omega), Int.toNat_natCast, Int.toNat_natCast]

theorem flatMap_page (s : Store) (hsize : 1 ≤ size) (pages : Nat) :
    (List.range pages).flatMap (fun p : Nat => s.page p size) = s.tasks.take (pages * size) := by
  induction pages with
  | zero => simp
  | succ pages ih =>
    rw [List.range_succ, List.flatMap_append, ih, List.flatMap_singleton, s.page_eq hsize,
      Nat.succ_mul, List.take_add]

/-- A page is there exactly if a task stands after the pages before it. -/
theorem lt_totalPages_iff (s : Store) (hsize : 1 ≤ size) (hmax : size ≤ 2 ^ 53) (p : Nat) :
    p < s.totalPages size ↔ p * size < s.tasks.length := by
  have hlength : s.size = s.tasks.length := rfl
  rw [s.totalPages_eq hsize hmax, ← hlength, Nat.lt_iff_add_one_le, Nat.le_div_iff_mul_le hsize,
    Nat.succ_mul]
  omega

theorem length_le_totalPages (s : Store) (hsize : 1 ≤ size) (hmax : size ≤ 2 ^ 53) :
    s.tasks.length ≤ s.totalPages size * size := by
  have := mt (s.lt_totalPages_iff hsize hmax (s.totalPages size)).2 (Nat.lt_irrefl _)
  omega

theorem paged (s : Store) (h : s.size < 2 ^ 53) (hsize : 1 ≤ size) (hmax : size ≤ 2 ^ 53) :
    s.Paged size where
  rounded := by
    rw [s.totalPages_eq hsize hmax]
    exact Binary64.ceiling?_ofRatio h hsize hmax
  filled := by
    intro p hp
    rw [s.lt_totalPages_iff hsize hmax] at hp
    rw [s.page_eq hsize]
    refine ⟨fun hnil => ?_, List.length_take_le _ _⟩
    have hlength := congrArg List.length hnil
    rw [List.length_take, List.length_drop, List.length_nil] at hlength
    omega
  whole := by
    rw [s.flatMap_page hsize]
    exact List.take_of_length_le (s.length_le_totalPages hsize hmax)
  outside := by
    intro p hp
    by_cases hneg : p < 0
    · rw [page, if_pos (.inl hneg)]
    · lift p to ℕ using not_lt.1 hneg
      have hge : s.totalPages size ≤ p := by omega
      have hlength : s.tasks.length ≤ p * size :=
        (s.length_le_totalPages hsize hmax).trans (Nat.mul_le_mul_right size hge)
      rw [s.page_eq hsize, List.drop_of_length_le hlength, List.take_nil]

end Store

namespace Console

open Text

/-! ## Asking for a page -/

def pageLine (signs : List Char) : String :=
  "list" ++ " " ++ String.ofList signs

def Reply.entries (reply : Reply) : List String :=
  reply.text.tail.dropLast

variable {signs : List Char} {page : Nat}

theorem isDigitSign_of_writesNumber (h : WritesNumber signs page) :
    signs.all isDigitSign = true := by
  rw [List.all_eq_true]
  intro c hc
  rw [isDigitSign, h.digits c hc, Bool.true_or]

theorem verb?_pageLine (h : WritesNumber signs page) :
    verb? (pageLine signs) = some (.list, [String.ofList signs]) := by
  have hlist : IsWord "list" := by decide +kernel
  have hsigns : IsWord (String.ofList signs) := by
    refine ⟨by simpa using h.ne_nil, fun c hc => ?_⟩
    rw [String.toList_ofList] at hc
    by_contra hblank
    have hdigit := h.digits c hc
    rw [isDigit, digitValue?_of_isBlank (by simpa using hblank)] at hdigit
    cases hdigit
  have hverb : Verb.ofName? "list".lowered = some .list := by decide +kernel
  rw [verb?, pageLine, blankSeparated_append, hlist.blankSeparated, hsigns.blankSeparated]
  dsimp only [List.singleton_append]
  rw [hverb, Option.map_some]

theorem writesNumber_toDigits (n : Nat) : WritesNumber (Nat.toDigits 10 n) n :=
  natural?_eq_some_iff.1 (natural?_toDigits n)

end Console

namespace Host

open Console Text

variable {s : Host} {caller : String} {signs : List Char} {page : Nat}

theorem answerLine_pageLine (caller : String) (h : WritesNumber signs page)
    (hshort : signs.length ≤ maxDigits) (hstore : s.engine.store.tasks ≠ []) :
    s.answerLine caller (pageLine signs) = (s.listPage page, s) := by
  have hverb : s.answerVerb caller .list [String.ofList signs] = (s.listPage page, s) := by
    change (s.answerList (some (String.ofList signs)), s) = _
    rw [answerList, String.toList_ofList, if_pos (isDigitSign_of_writesNumber h), pageNumber?,
      if_pos hshort, natural?_eq_some_iff.2 h, listPage?,
      if_neg (mt (Store.totalPages_eq_zero_iff _).1 hstore)]
  obtain ⟨v, _, u, hbroken, -⟩ | ⟨-, hanswer⟩ := s.answerLine_of_verb? caller (verb?_pageLine h)
  · rw [hverb, listPage] at hbroken
    split at hbroken <;> cases hbroken
  · rw [hanswer, hverb]

/-- Digits too many to be read break the list off. -/
theorem asksUnreadPage_pageLine (h : WritesNumber signs page) (hlong : maxDigits < signs.length) :
    AsksUnreadPage (pageLine signs) := by
  refine ⟨String.ofList signs, [], verb?_pageLine h, ?_, ?_⟩
  · rw [String.toList_ofList]
    exact isDigitSign_of_writesNumber h
  · rw [String.toList_ofList, pageNumber?, if_neg (by omega)]

theorem summaries_append (first : Nat) (ts us : List Task) :
    summaries first (ts ++ us) = summaries first ts ++ summaries (first + ts.length) us := by
  rw [summaries, List.zipIdx_append, List.map_append]
  rfl

/-- Numbering page after page numbers the tasks from one. -/
theorem flatMap_summaries (store : Store) {size : Nat} (hsize : 1 ≤ size) (pages : Nat) :
    (List.range pages).flatMap (fun p : Nat => summaries (p * size + 1) (store.page p size)) =
      summaries 1 (store.tasks.take (pages * size)) := by
  induction pages with
  | zero => simp [summaries]
  | succ pages ih =>
    rw [List.range_succ, List.flatMap_append, ih, List.flatMap_singleton, store.page_eq hsize,
      Nat.succ_mul, List.take_add, summaries_append, List.length_take]
    by_cases hlength : pages * size ≤ store.tasks.length
    · rw [Nat.min_eq_left hlength, Nat.add_comm 1]
    · -- no task is left for this page
      rw [List.drop_of_length_le (by omega), List.take_nil]
      rfl

structure ListsPages (s : Host) (caller : String) : Prop where
  shown : ∀ signs page, WritesNumber signs page → signs.length ≤ maxDigits → 1 ≤ page →
    page ≤ s.engine.store.totalPages pageSize →
      s.answerLine caller (pageLine signs) =
        (.lines (("=== Tasks (page " ++ toString page ++ "/" ++
            toString (s.engine.store.totalPages pageSize) ++ ") ===") ::
          summaries ((page - 1) * pageSize + 1)
            (s.engine.store.page (page - 1 : Nat) pageSize) ++
          ["Use 'list <id>' for task details"]), s)
  refused : ∀ signs page, WritesNumber signs page → signs.length ≤ maxDigits →
    page < 1 ∨ s.engine.store.totalPages pageSize < page →
      s.answerLine caller (pageLine signs) =
        (.refused (.pageOutOfRange (s.engine.store.totalPages pageSize)), s)
  /-- A number with too many digits is not read, whatever it is. -/
  unread : ∀ signs page, WritesNumber signs page → maxDigits < signs.length →
    (s.answerLine caller (pageLine signs)).1 = .brokenOff .list
  /-- The pages one after the other show each task once, in the order of the store, and number
  them from one. -/
  whole : (List.range (s.engine.store.totalPages pageSize)).flatMap (fun p =>
      (s.answerLine caller (pageLine (Nat.toDigits 10 (p + 1)))).1.entries) =
    summaries 1 s.engine.store.tasks

theorem entries_listPage (hpage : 1 ≤ page) (hmost : page ≤ s.engine.store.totalPages pageSize) :
    (s.listPage page).entries =
      summaries ((page - 1) * pageSize + 1) (s.engine.store.page (page - 1 : Nat) pageSize) := by
  rw [listPage, if_pos ⟨hpage, hmost⟩, Reply.entries, Reply.text, List.cons_append,
    List.tail_cons, List.dropLast_concat]

theorem listsPages (caller : String) (h : s.engine.store.size < 2 ^ 53)
    (hstore : s.engine.store.tasks ≠ []) : s.ListsPages caller where
  shown := by
    intro signs page hsigns hshort hpage hmost
    rw [answerLine_pageLine caller hsigns hshort hstore, listPage, if_pos ⟨hpage, hmost⟩]
  refused := by
    intro signs page hsigns hshort hpage
    rw [answerLine_pageLine caller hsigns hshort hstore, listPage, if_neg (by omega)]
  unread := by
    intro signs page hsigns hlong
    exact answerLine_of_asksUnreadPage caller hstore (asksUnreadPage_pageLine hsigns hlong)
  whole := by
    have hsize : 1 ≤ pageSize := by decide
    have hmax : pageSize ≤ 2 ^ 53 := by decide
    rw [← List.take_of_length_le (s.engine.store.length_le_totalPages hsize hmax),
      ← flatMap_summaries _ hsize]
    apply List.flatMap_congr
    intro p hp
    have hp : p < s.engine.store.totalPages pageSize := List.mem_range.1 hp
    have hfew : p + 1 < 10 ^ (15 + 1) := by
      have := (s.engine.store.lt_totalPages_iff hsize hmax p).1 hp
      have := Nat.mul_le_mul_left p hsize
      have hlength : s.engine.store.size = s.engine.store.tasks.length := rfl
      omega
    have hshort : (Nat.toDigits 10 (p + 1)).length ≤ maxDigits :=
      (length_toDigits_le hfew).trans (by decide)
    rw [answerLine_pageLine caller (writesNumber_toDigits _) hshort hstore,
      entries_listPage (by omega) hp]
    rfl

end Host

open Console Host Text

/-- With fewer than `2 ^ 53` tasks, the pages of any size up to that number cut the store into
parts, and the lines that ask for a page show those of the size of the console. -/
theorem paged_of_size_lt {store : Store} (h : store.size < 2 ^ 53) :
    (∀ size, 1 ≤ size → size ≤ 2 ^ 53 → store.Paged size) ∧
      ∀ s : Host, s.engine.store = store → store.tasks ≠ [] → ∀ caller, s.ListsPages caller := by
  refine ⟨fun size hsize hmax => store.paged h hsize hmax, ?_⟩
  rintro s rfl hstore caller
  exact listsPages caller h hstore

def elevenChimes : Store :=
  Store.ofList ((List.range 11).map fun i => { chime with id := toString i })

theorem paged_elevenChimes :
    elevenChimes.size < 2 ^ 53 ∧ elevenChimes.tasks ≠ [] ∧
      (elevenChimes.totalPages 4 = 3 ∧ elevenChimes.Paged 4) ∧
      (elevenChimes.totalPages pageSize = 2 ∧
        ListsPages { chimeHost with engine := { store := elevenChimes } } "Ann") := by
  have hsize : elevenChimes.size < 2 ^ 53 := by decide +kernel
  have hstore : elevenChimes.tasks ≠ [] := by decide +kernel
  obtain ⟨hpaged, hlists⟩ := paged_of_size_lt hsize
  refine ⟨hsize, hstore, ⟨by decide +kernel, hpaged 4 (by decide) (by decide)⟩,
    ⟨by decide +kernel, hlists _ rfl hstore "Ann"⟩⟩

theorem exists_writesNumber_nines (k : Nat) :
    ∃ n, 1 < n ∧ WritesNumber (List.replicate (k + 1) '9') n := by
  have hnine : digitValue? '9' = some 9 := by decide +kernel
  induction k with
  | zero => exact ⟨9, by decide, .digit hnine⟩
  | succ k ih =>
    obtain ⟨n, hn, hwrites⟩ := ih
    rw [List.replicate_succ']
    exact ⟨10 * n + 9, by omega, hwrites.more hnine⟩

/-- With one page, a page number of 4301 nines is not answered with the range of the pages. -/
theorem nines_brokenOff :
    chimeHost.engine.store.size < 2 ^ 53 ∧ chimeHost.engine.store.totalPages pageSize = 1 ∧
      (∃ page, 1 < page ∧ WritesNumber (List.replicate 4301 '9') page) ∧
      (chimeHost.answerLine "Ann" (pageLine (List.replicate 4301 '9'))).1.text =
        ["Internal error while running 'list'"] := by
  obtain ⟨page, hpage, hwrites⟩ := exists_writesNumber_nines 4300
  have hlong : maxDigits < (List.replicate 4301 '9').length := by
    rw [List.length_replicate]
    decide
  refine ⟨by decide +kernel, by decide +kernel, ⟨page, hpage, hwrites⟩, ?_⟩
  rw [answerLine_of_asksUnreadPage "Ann" (by decide +kernel)
    (asksUnreadPage_pageLine hwrites hlong)]
  rfl

end Cadence
