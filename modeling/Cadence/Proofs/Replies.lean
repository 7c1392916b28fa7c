import Cadence.Proofs.Recordable
import Cadence.Proofs.Refusals

/-!
# Every line is answered

With ticks of a positive length no verb breaks off but one: a list whose page is written in digit
signs that write no number, such as a superscript, while there are tasks to list, or a list of a
task with a number too long to be shown. Every reply has a line to show. A line that saves the tasks
is taken to find only such as can be recorded, and it leaves only such behind.
-/

namespace Cadence

namespace Store

theorem totalPages_eq (s : Store) {size : Nat} (hsize : 1 ≤ size) (hmax : size ≤ 2 ^ 53) :
    s.totalPages size = (s.size + size - 1) / size := by
  have hshare : 2 ^ 53 < Nat.pow 2 1075 := by decide +kernel
  rw [totalPages, if_neg (by omega)]
  dsimp only [Int.toNat_natCast]
  generalize Nat.pow 2 1075 = share at hshare
  split
  · -- a share of no page at all is that of no task
    rename_i h
    have hzero : s.size = 0 := by
      by_contra hpos
      have hle : 1 * share ≤ s.size * share :=
        Nat.mul_le_mul_right share (Nat.one_le_iff_ne_zero.2 hpos)
      omega
    rw [hzero, Nat.zero_add, Nat.div_eq_of_lt (by omega)]
  · rfl

theorem totalPages_eq_zero_iff (s : Store) : s.totalPages Host.pageSize = 0 ↔ s.tasks = [] := by
  have hsize : Host.pageSize = 10 := rfl
  have hempty : s.size = 0 ↔ s.tasks = [] := List.length_eq_zero_iff
  rw [hsize, s.totalPages_eq (by decide) (by decide), ← hempty]
  omega

end Store

namespace Console

/-- The line asks for a page in digit signs that write no number. -/
def AsksUnreadPage (line : String) : Prop :=
  ∃ signs rest, verb? line = some (.list, signs :: rest) ∧
    signs.toList.all Text.isDigitSign = true ∧ Host.pageNumber? signs.toList = none

theorem Reply.text_ne_nil {reply : Reply} (h : reply ≠ .lines []) : reply.text ≠ [] := by
  cases reply with
  | lines ls => exact fun htext => h (congrArg Reply.lines htext)
  | refused r => exact List.cons_ne_nil _ _
  | unknown name => exact List.cons_ne_nil _ _
  | brokenOff verb => exact List.cons_ne_nil _ _

end Console

namespace Host

open Console

variable {s : Host} {caller line : String}

/-- The line asks for a stored task with a number too long to be shown. -/
def AsksOversized (s : Host) (line : String) : Prop :=
  ∃ id rest t, verb? line = some (.list, id :: rest) ∧
    id.toList.all Text.isDigitSign = false ∧ s.engine.store.get? id = some t ∧ t.IsOversized

/-! ## What each verb answers -/

def Answers (reply : Reply) : Prop :=
  reply ≠ .lines [] ∧ ∀ verb, reply ≠ .brokenOff verb

theorem answers_refused (r : Refusal) : Answers (.refused r) :=
  ⟨nofun, nofun⟩

theorem answers_cons (first : String) (rest : List String) : Answers (.lines (first :: rest)) :=
  ⟨nofun, nofun⟩

theorem answers_answerCreate (hc : 1 ≤ s.engine.config.tickMillis) (args : List String) :
    Answers (s.answerCreate args).1 := by
  unfold answerCreate
  split
  · rename_i commands time days _ _
    obtain ⟨id, hid⟩ | ⟨e, he⟩ := createTask_spec hc commands time days
    · split
      · exact answers_cons _ _
      · exact answers_refused _
      · rename_i heq
        rw [heq] at hid
        cases hid
    · rw [he]
      exact answers_refused _
  · exact answers_refused _

theorem answers_answerDelete (s : Host) (caller : String) {id : String}
    (hid : id.isBlankText = false) : Answers (s.answerDelete caller id).1 := by
  obtain ⟨-, hanswer⟩ | ⟨-, -, hanswer⟩ | ⟨-, -, hanswer⟩ := s.answerDelete_spec caller hid
  · rw [hanswer]
    exact answers_refused _
  · rw [hanswer]
    exact answers_cons _ _
  · rw [hanswer]
    exact answers_cons _ _

theorem answers_answerSwitch (hc : 1 ≤ s.engine.config.tickMillis) (verb : Verb) (enabled : Bool)
    (id : String) : Answers (s.answerSwitch verb enabled id).1 := by
  unfold answerSwitch
  have hspec := switchTask_spec hc id enabled
  split
  · exact answers_cons _ _
  · exact answers_refused _
  · rename_i heq
    rw [heq] at hspec
    obtain h | h := hspec <;> cases h

theorem answers_answerRun (s : Host) (id : String) : Answers (s.answerRun id).1 := by
  unfold answerRun
  split
  · exact answers_refused _
  · split
    · exact answers_cons _ _
    · exact answers_refused _

theorem answers_answerReload (hc : 1 ≤ s.engine.config.tickMillis) :
    Answers s.answerReload.1 := by
  unfold answerReload
  have hok := reloadScheduler_ok hc
  split
  · exact answers_cons _ _
  · rename_i heq
    rw [heq] at hok
    cases hok

theorem answers_answerSearch (s : Host) (keyword : String) : Answers (s.answerSearch keyword) := by
  unfold answerSearch
  cases s.engine.store.search (some keyword) with
  | nil => exact answers_cons _ _
  | cons t rest => exact answers_cons _ _

/-- A page is shown if there is nothing to list or its number is known. -/
theorem answers_listPage? {page : Option Nat} (h : s.engine.store.tasks = [] ∨ page ≠ none) :
    Answers (s.listPage? page) := by
  unfold listPage?
  split
  · exact answers_cons _ _
  · rename_i hpages
    rw [Store.totalPages_eq_zero_iff] at hpages
    split
    · unfold listPage
      dsimp only
      split
      · exact answers_cons _ _
      · exact answers_refused _
    · exact absurd (h.resolve_left hpages) (not_not.2 rfl)

theorem listPage?_none (h : s.engine.store.tasks ≠ []) : s.listPage? none = .brokenOff .list := by
  rw [listPage?, if_neg (mt (Store.totalPages_eq_zero_iff _).1 h)]

theorem answers_answerList {selector : Option String}
    (hpage : s.engine.store.tasks = [] ∨ ∀ signs, selector = some signs →
      signs.toList.all Text.isDigitSign = true → pageNumber? signs.toList ≠ none)
    (hshort : ∀ id t, selector = some id → id.toList.all Text.isDigitSign = false →
      s.engine.store.get? id = some t → ¬ t.IsOversized) :
    Answers (s.answerList selector) := by
  cases selector with
  | none =>
    rw [answerList]
    exact answers_listPage? (.inr nofun)
  | some text =>
    rw [answerList]
    split
    · rename_i hsigns
      exact answers_listPage? (hpage.imp_right fun h => h text rfl hsigns)
    · rename_i hid
      split
      · rename_i t hfound
        obtain ⟨first, rest, hdetails⟩ :=
          Task.details?_of_short (hshort text t rfl (Bool.not_eq_true _ ▸ hid) hfound)
        rw [hdetails]
        exact answers_cons _ _
      · exact answers_refused _

/-! ## What a line answers -/

theorem answers_answerVerb (hc : 1 ≤ s.engine.config.tickMillis) (caller : String) {verb : Verb}
    {args : List String} (hargs : ∀ arg ∈ args, arg.isBlankText = false)
    (hlist : verb = .list → Answers (s.answerList args.head?)) :
    Answers (s.answerVerb caller verb args).1 := by
  unfold answerVerb
  split
  · exact answers_answerCreate hc args
  · exact hlist rfl
  · exact answers_answerReload hc
  · exact answers_cons _ _
  · exact answers_cons _ _
  · exact answers_refused _
  · exact answers_answerSearch s _
  · exact answers_answerDelete s caller (hargs _ List.mem_cons_self)
  · exact answers_answerSwitch hc .enable true _
  · exact answers_answerSwitch hc .disable false _
  · exact answers_answerRun s _

theorem answers_answerLine (hc : 1 ≤ s.engine.config.tickMillis) (caller : String)
    (hread : s.engine.store.tasks = [] ∨ ¬ AsksUnreadPage line)
    (hshort : ¬ s.AsksOversized line) : Answers (s.answerLine caller line).1 := by
  cases hline : verb? line with
  | none =>
    obtain ⟨name, hanswer⟩ := s.answerLine_of_no_verb caller hline
    rw [hanswer]
    exact ⟨nofun, nofun⟩
  | some command =>
    obtain ⟨verb, args⟩ := command
    have hverb : Answers (s.answerVerb caller verb args).1 := by
      apply answers_answerVerb hc caller fun _ => not_blank_of_verb? hline
      rintro rfl
      apply answers_answerList
      · refine hread.imp_right fun hread signs hsigns hall hpage => hread ?_
        obtain ⟨rest, rfl⟩ := List.head?_eq_some_iff.1 hsigns
        exact ⟨signs, rest, hline, hall, hpage⟩
      · intro id t hid hplain hfound hlong
        obtain ⟨rest, rfl⟩ := List.head?_eq_some_iff.1 hid
        exact hshort ⟨id, rest, t, hline, hplain, hfound, hlong⟩
    obtain ⟨v, _, u, hbroken, -⟩ | ⟨-, hanswer⟩ := s.answerLine_of_verb? caller hline
    · rw [hbroken] at hverb
      exact absurd rfl (hverb.2 v)
    · rw [hanswer]
      exact hverb

/-- A list that breaks off is answered so. -/
theorem answerLine_of_answerList {selector : String} {rest : List String} (caller : String)
    (hline : verb? line = some (.list, selector :: rest))
    (h : s.answerList (some selector) = .brokenOff .list) :
    (s.answerLine caller line).1 = .brokenOff .list := by
  have hverb : (s.answerVerb caller .list (selector :: rest)).1 = .brokenOff .list := h
  obtain ⟨v, _, u, hbroken, hanswer⟩ | ⟨hne, -⟩ := s.answerLine_of_verb? caller hline
  · rw [hbroken] at hverb
    rw [hanswer]
    exact hverb
  · exact absurd hverb (hne .list)

theorem answerLine_of_asksUnreadPage (caller : String) (hstore : s.engine.store.tasks ≠ [])
    (h : AsksUnreadPage line) : (s.answerLine caller line).1 = .brokenOff .list := by
  obtain ⟨signs, rest, hline, hall, hpage⟩ := h
  apply answerLine_of_answerList caller hline
  rw [answerList, if_pos hall, hpage, listPage?_none hstore]

theorem answerLine_of_asksOversized (caller : String) (h : s.AsksOversized line) :
    (s.answerLine caller line).1 = .brokenOff .list := by
  obtain ⟨id, rest, t, hline, hplain, hfound, hlong⟩ := h
  apply answerLine_of_answerList caller hline
  rw [answerList, hplain, hfound]
  simp only [Bool.false_eq_true, if_false, Task.details?_of_isOversized hlong]
  rfl

/-- Every line has a reply, and it is the reply of a verb that broke off exactly if the line asks
to list tasks, of which there are some, by a page in digit signs that write no number, or to show a
task with a number too long to be shown. A line that saves the tasks is taken to find none that
cannot be recorded, and it saves none. -/
theorem answerLine_brokenOff_iff (hc : 1 ≤ s.engine.config.tickMillis) (caller line : String)
    (hstored : SavesTasks line → s.Recordable) :
    (s.answerLine caller line).1.text ≠ [] ∧
      (∀ verb, (s.answerLine caller line).1 = .brokenOff verb ↔
        verb = .list ∧
          (s.engine.store.tasks ≠ [] ∧ AsksUnreadPage line ∨ s.AsksOversized line)) ∧
      (SavesTasks line → (s.answerLine caller line).2.Recordable) := by
  have hsaved : SavesTasks line → (s.answerLine caller line).2.Recordable :=
    fun hsaves => (hstored hsaves).answerLine caller hsaves
  by_cases h : s.engine.store.tasks ≠ [] ∧ AsksUnreadPage line ∨ s.AsksOversized line
  · have hanswer : (s.answerLine caller line).1 = .brokenOff .list := by
      rcases h with ⟨hstore, hpage⟩ | hlong
      · exact answerLine_of_asksUnreadPage caller hstore hpage
      · exact answerLine_of_asksOversized caller hlong
    rw [hanswer]
    refine ⟨List.cons_ne_nil _ _, fun verb => ?_, hsaved⟩
    rw [Reply.brokenOff.injEq]
    exact ⟨fun hverb => ⟨hverb.symm, h⟩, fun hverb => hverb.1.symm⟩
  · obtain ⟨hread, hshort⟩ := not_or.1 h
    have hanswers : Answers (s.answerLine caller line).1 :=
      answers_answerLine hc caller (by rwa [not_and_or, not_not] at hread) hshort
    refine ⟨Reply.text_ne_nil hanswers.1, fun verb => ?_, hsaved⟩
    exact ⟨fun hbroken => absurd hbroken (hanswers.2 verb), fun hasked => absurd hasked.2 h⟩

theorem recordable_chimeHost : chimeHost.Recordable := by
  intro t ht
  cases List.mem_singleton.1 ht
  exact ⟨not_or.2 ⟨by decide, by decide⟩, nofun⟩

/-- The first page is shown; a superscript two is a digit sign that writes no number. A task that is
enabled is saved. -/
theorem answerLine_superscript :
    1 ≤ chimeHost.engine.config.tickMillis ∧ chimeHost.Recordable ∧
      (chimeHost.answerLine "Ann" "list 1").1 ≠ .brokenOff .list ∧
      (chimeHost.answerLine "Ann" "list ²").1 = .brokenOff .list ∧
      SavesTasks "enable chime" ∧
      (chimeHost.answerLine "Ann" "enable chime").1 ≠ .brokenOff .enable ∧
      (chimeHost.answerLine "Ann" "enable chime").2.Recordable := by
  have htick : 1 ≤ chimeHost.engine.config.tickMillis := by decide
  have hanswer (line : String) :=
    answerLine_brokenOff_iff htick "Ann" line fun _ => recordable_chimeHost
  have hread : ¬ AsksUnreadPage "list 1" := by
    rintro ⟨signs, rest, hline, -, hpage⟩
    have hverb : verb? "list 1" = some (.list, ["1"]) := by decide +kernel
    rw [hverb] at hline
    cases hline
    exact absurd hpage (by decide +kernel)
  have hshort : ¬ chimeHost.AsksOversized "list 1" := by
    rintro ⟨id, rest, t, hline, hplain, -⟩
    have hverb : verb? "list 1" = some (.list, ["1"]) := by decide +kernel
    rw [hverb] at hline
    cases hline
    exact absurd hplain (by decide +kernel)
  have hunread : AsksUnreadPage "list ²" :=
    ⟨"²", [], by decide +kernel, by decide +kernel, by decide +kernel⟩
  have hsaves : SavesTasks "enable chime" := by
    have hverb : verb? "enable chime" = some (.enable, ["chime"]) := by decide +kernel
    exact ⟨.switch "chime" true, by rw [order?, hverb]; rfl, rfl⟩
  refine ⟨htick, recordable_chimeHost, fun h => ?_, ?_, hsaves, fun h => ?_, ?_⟩
  · rcases (((hanswer "list 1").2.1 .list).1 h).2 with hpage | hlong
    · exact hread hpage.2
    · exact hshort hlong
  · exact ((hanswer "list ²").2.1 .list).2 ⟨rfl, .inl ⟨by decide +kernel, hunread⟩⟩
  · exact nomatch (((hanswer "enable chime").2.1 .enable).1 h).1
  · exact (hanswer "enable chime").2.2 hsaves

/-- With a task stored, a list by the page of a superscript breaks off. -/
theorem superscript_brokenOff :
    chimeHost.Reachable {} ∧ 1 ≤ chimeHost.engine.config.tickMillis ∧
      (chimeHost.answerLine "Ann" "list ²").1.text = ["Internal error while running 'list'"] :=
  ⟨⟨chimeHost, rfl, [], rfl⟩, by decide, by decide +kernel⟩

end Host

end Cadence
