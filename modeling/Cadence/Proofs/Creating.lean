import Cadence.Proofs.Canonical
import Cadence.Proofs.Refusals
import Cadence.Proofs.Squeezing

/-!
# Creating tasks by a line

A line that is cut at its blanks gives the service a commands clause whose blanks are squeezed. Such
a clause describes the same task, but for the blanks inside its commands, so the line does what the
service does with the clauses as they were written. That takes a clause that ends where a line sees
its end: at the first word with a closing brace last.
-/

namespace String

def squeezed (s : String) : String :=
  String.ofList (Cadence.Text.squeeze s.toList)

end String

namespace Cadence

open Console Text

theorem join_eq_intercalate (sep : List Char) (ws : List (List Char)) :
    join sep ws = sep.intercalate ws := by
  induction ws with
  | nil => rfl
  | cons w ws ih =>
    cases ws with
    | nil => simp [join]
    | cons v ws => rw [join_cons (List.cons_ne_nil v ws), ih, List.intercalate_cons_cons]

theorem intercalate_blankSeparated {s : String} (h : s.stripBlanks = s) :
    " ".intercalate s.blankSeparated = s.squeezed := by
  rw [← String.toList_inj, String.toList_intercalate, String.blankSeparated, List.map_map]
  have hlists : String.toList ∘ String.ofList = id := funext fun _ => String.toList_ofList
  rw [hlists, List.map_id, ← join_eq_intercalate, String.squeezed,
    String.toList_ofList (l := squeeze s.toList)]
  exact join_words (strip_toList h)

/-! ## Putting a clause together again -/

namespace Arguments

variable {clause rest : List String}

theorem splitClosed_append {before : List String} {last : String} (rest : List String)
    (hbefore : ∀ a ∈ before, closes a = false) (hlast : closes last = true) :
    splitClosed (before ++ last :: rest) = some (before ++ [last], rest) := by
  induction before with
  | nil => simp [splitClosed, hlast]
  | cons a before ih =>
    rw [List.forall_mem_cons] at hbefore
    rw [List.cons_append, splitClosed, hbefore.1, ih hbefore.2]
    rfl

/-- A clause that opens with its first word and closes with its last one only is put together. -/
theorem rejoin_append (hopens : ∃ a ∈ clause.head?, opens a = true)
    (hcloses : ∃ a ∈ clause.getLast?, closes a = true)
    (hinner : ∀ a ∈ clause.dropLast, closes a = false) :
    rejoin (clause ++ rest) = " ".intercalate clause :: rest := by
  obtain ⟨last, hlast, hclosed⟩ := hcloses
  have hclause := List.dropLast_append_getLast? last hlast
  obtain ⟨first, hfirst, hopened⟩ := hopens
  obtain ⟨tail, rfl⟩ := List.head?_eq_some_iff.1 hfirst
  have hsplit := splitClosed_append rest hinner hclosed
  rw [hclause, List.append_cons, hclause] at hsplit
  unfold rejoin
  rw [List.cons_append, List.takeWhile_cons_of_neg (by simp [hopened]),
    List.dropWhile_cons_of_neg (by simp [hopened]), ← List.cons_append, hsplit]
  rfl

end Arguments

/-! ## Squeezed clauses -/

def Spec.squeezed (s : Spec) : Spec :=
  { s with commands := s.commands.map String.squeezed }

def Task.squeezed (t : Task) : Task :=
  { t with commands := t.commands.map String.squeezed }

namespace CommandsClause

def squeezed (c : CommandsClause) : CommandsClause :=
  { c with commands := c.commands.map String.squeezed }

def Token.squeezed : Token → Token
  | command s => command s.squeezed
  | t => t

/-- A token with a blank in it is a command. -/
theorem Token.read_of_blank {cs : List Char} {b : Char} (hb : b ∈ cs) (h : isBlank b = true) :
    Token.read cs = .ok (.command (String.ofList cs)) :=
  Token.read_of_stands (.command (.inr ⟨b, hb, h⟩))

theorem Token.read_squeeze {cs : List Char} {t : Token} (h : Token.read cs = .ok t) :
    Token.read (squeeze cs) = .ok t.squeezed := by
  by_cases hblank : ∃ b ∈ cs, isBlank b = true
  · obtain ⟨b, hb, hbb⟩ := hblank
    rw [read_of_blank hb hbb] at h
    cases h
    rw [read_of_blank (space_mem_squeeze hb hbb) rfl, Token.squeezed, String.squeezed,
      String.toList_ofList]
  · have hnone : ∀ c ∈ cs, isBlank c = false := by simpa using hblank
    rw [squeeze_of_no_blank hnone, h]
    cases t with
    | command text =>
      cases judges_read.ok_iff.1 h
      rw [Token.squeezed, String.squeezed, String.toList_ofList, squeeze_of_no_blank hnone]
    | _ => rfl

theorem ofTokens_squeezed {tokens : List Token} {c : CommandsClause}
    (h : ofTokens tokens = .ok c) : ofTokens (tokens.map Token.squeezed) = .ok c.squeezed := by
  have hcommands : (tokens.map Token.squeezed).filterMap Token.command? =
      (tokens.filterMap Token.command?).map String.squeezed := by
    rw [List.filterMap_map, List.map_filterMap]
    exact List.filterMap_congr fun t _ => by cases t <;> rfl
  have hmodes : (tokens.map Token.squeezed).filterMap Token.mode? =
      tokens.filterMap Token.mode? := by
    rw [List.filterMap_map]
    exact List.filterMap_congr fun t _ => by cases t <;> rfl
  have hpaces : (tokens.map Token.squeezed).filterMap Token.pace? =
      tokens.filterMap Token.pace? := by
    rw [List.filterMap_map]
    exact List.filterMap_congr fun t _ => by cases t <;> rfl
  unfold ofTokens at h ⊢
  rw [hcommands, hmodes, hpaces]
  dsimp only at h ⊢
  split at h
  · cases h
  · rename_i hne
    cases h
    rw [if_neg (by simpa using hne), List.length_map]
    rfl

theorem exists_body_of_parse {clause : String} {c : CommandsClause}
    (hcut : clause.stripBlanks = clause) (h : CommandsClause.parse clause = .ok c) :
    ∃ body, clause.toList = '\x7b' :: (body ++ ['\x7d']) := by
  unfold CommandsClause.parse at h
  rw [strip_toList hcut] at h
  split at h
  · cases h
  · rename_i body hbody
    exact ⟨body, body?_eq_some_iff.1 hbody⟩

theorem parse_squeezed {clause : String} {c : CommandsClause} (hcut : clause.stripBlanks = clause)
    (h : CommandsClause.parse clause = .ok c) :
    CommandsClause.parse clause.squeezed = .ok c.squeezed := by
  have hstrip := strip_toList hcut
  unfold CommandsClause.parse at h ⊢
  rw [hstrip] at h
  rw [String.squeezed, String.toList_ofList, strip_squeeze, hstrip]
  split at h
  · cases h
  · rename_i body hbody
    obtain ⟨tokens, htokens, h⟩ := exists_of_bind_ok h
    have hsqueezed : body? (squeeze clause.toList) = some (squeeze body) := by
      rw [body?_eq_some_iff] at hbody ⊢
      have hbrace : ∀ b, ['\x7d'].head? = some b → isBlank b = false := by
        intro b hb
        cases hb
        rfl
      rw [hbody, squeeze_cons rfl, squeeze_append (.inr hbrace)]
      rfl
    have hread : ((fields body).map squeeze).mapM (fun f => Token.read (strip f)) =
        .ok (tokens.map Token.squeezed) := by
      refine mapM_map_of_ok (fun f t ht => ?_) htokens
      rw [strip_squeeze]
      exact Token.read_squeeze ht
    rw [hsqueezed]
    dsimp only
    rw [fields_squeeze, hread]
    exact ofTokens_squeezed h

end CommandsClause

/-- A squeezed clause describes the same task but for the blanks in its commands. -/
theorem Spec.parse_squeezed {commands : String} {c : CommandsClause} (time days : String)
    (hcut : commands.stripBlanks = commands) (h : CommandsClause.parse commands = .ok c) :
    Spec.parse commands.squeezed time days =
      (Spec.parse commands time days).map Spec.squeezed := by
  unfold Spec.parse
  rw [h, CommandsClause.parse_squeezed hcut h]
  cases TimeClause.parse time with
  | error e => rfl
  | ok t =>
    cases DaysClause.parse days with
    | error e => rfl
    | ok d =>
      simp only [bind, Except.bind]
      cases t.schedule (d.interval.map (·.toInterval)) with
      | error e => rfl
      | ok schedule => rfl

/-! ## The line -/

namespace Console

def IsWord (text : String) : Prop :=
  text.toList ≠ [] ∧ ∀ c ∈ text.toList, isBlank c = false

instance (text : String) : Decidable (IsWord text) :=
  decidable_of_iff (text.toList ≠ [] ∧ text.toList.all (!isBlank ·) = true) (by simp [IsWord])

def createLine (commands time days : String) : String :=
  "create" ++ " " ++ commands ++ " " ++ time ++ " " ++ days

variable {commands time days : String} {c : CommandsClause}

theorem IsWord.blankSeparated (h : IsWord time) : time.blankSeparated = [time] := by
  rw [String.blankSeparated, words_of_no_blank h.1 h.2, List.map_singleton, String.ofList_toList]

theorem blankSeparated_append (s t : String) :
    (s ++ " " ++ t).blankSeparated = s.blankSeparated ++ t.blankSeparated := by
  have hlist : (s ++ " " ++ t).toList = s.toList ++ ' ' :: t.toList := by simp
  rw [String.blankSeparated, hlist, words_append_blank rfl, List.map_append]
  rfl

theorem verb?_createLine (commands : String) (htime : IsWord time) (hdays : IsWord days) :
    verb? (createLine commands time days) =
      some (.create, commands.blankSeparated ++ [time, days]) := by
  have hcreate : IsWord "create" := by decide +kernel
  have hwords : (createLine commands time days).blankSeparated =
      "create" :: (commands.blankSeparated ++ [time, days]) := by
    rw [createLine, blankSeparated_append, blankSeparated_append, blankSeparated_append,
      hcreate.blankSeparated, htime.blankSeparated, hdays.blankSeparated, List.append_assoc]
    rfl
  have hverb : Verb.ofName? "create".lowered = some .create := by decide +kernel
  rw [verb?, hwords]
  dsimp only
  rw [hverb, Option.map_some]

theorem rejoin_createLine (time days : String) (hcut : commands.stripBlanks = commands)
    (h : CommandsClause.parse commands = .ok c)
    (hinner : ∀ w ∈ commands.blankSeparated.dropLast, Arguments.closes w = false) :
    Arguments.rejoin (commands.blankSeparated ++ [time, days]) =
      [commands.squeezed, time, days] := by
  rw [← intercalate_blankSeparated hcut]
  obtain ⟨body, hbody⟩ := CommandsClause.exists_body_of_parse hcut h
  apply Arguments.rejoin_append _ _ hinner
  · obtain ⟨w, ws, hwords⟩ := exists_words_cons (c := '\x7b') rfl (body ++ ['\x7d'])
    refine ⟨String.ofList ('\x7b' :: w), ?_, ?_⟩
    · rw [String.blankSeparated, hbody, hwords]
      rfl
    · simp [Arguments.opens]
  · obtain ⟨ws, w, hwords⟩ := exists_words_concat (c := '\x7d') rfl ('\x7b' :: body)
    refine ⟨String.ofList (w ++ ['\x7d']), ?_, ?_⟩
    · rw [String.blankSeparated, hbody, ← List.cons_append, hwords]
      simp
    · simp [Arguments.closes]

end Console

/-! ## What the service does -/

def Storage.tried (s : Storage) (tasks : List Task) : Storage :=
  match s.save tasks with
  | .ok written => written
  | .error _ => s

namespace Store

theorem putTask_squeezed (t : Task) {ts : List Task} (h : (ts.map (·.id)).Nodup) :
    putTask t.squeezed ts =
      (putTask t ts).map fun u => if u.id = t.id then u.squeezed else u := by
  induction ts with
  | nil => simp [putTask]
  | cons u rest ih =>
    rw [List.map_cons, List.nodup_cons] at h
    rw [putTask, putTask]
    change (if u.id = t.id then _ else _) = _
    by_cases hu : u.id = t.id
    · have hrest : rest.map (fun v => if v.id = t.id then v.squeezed else v) = rest := by
        refine (List.map_congr_left fun v hv => if_neg ?_).trans (List.map_id _)
        intro hid
        exact h.1 (List.mem_map.2 ⟨v, hv, hid.trans hu.symm⟩)
      rw [if_pos hu, if_pos hu, List.map_cons, if_pos rfl, hrest]
    · rw [if_neg hu, if_neg hu, List.map_cons, if_neg hu, ← ih h.2]

theorem tasks_insert_squeezed (s : Store) (t : Task) :
    (s.insert t.squeezed).tasks =
      (s.insert t).tasks.map fun u => if u.id = t.id then u.squeezed else u :=
  putTask_squeezed t s.distinct

theorem size_insert_squeezed (s : Store) (t : Task) :
    (s.insert t.squeezed).size = (s.insert t).size := by
  rw [size, tasks_insert_squeezed, List.length_map, size]

end Store

namespace Host

open Console

variable {s : Host}

def withKept (s : Host) (store : Store) (storage : Storage) (log : List Event) : Host :=
  { s with world := { s.world with storage, log }, engine := { s.engine with store } }

/-- Both hosts have a task `id` and differ in nothing but the blanks in its commands, which are
squeezed in `u'`; and each has tried to write its own tasks to the storage of `s`. -/
structure Squeezed (s : Host) (id : String) (u u' : Host) : Prop where
  mem_ids : id ∈ u.engine.store.ids
  tasks : u'.engine.store.tasks =
    u.engine.store.tasks.map fun t => if t.id = id then t.squeezed else t
  storage : u.world.storage = s.world.storage.tried u.engine.store.tasks
  storage' : u'.world.storage = s.world.storage.tried u'.engine.store.tasks
  rest : u' = u.withKept u'.engine.store u'.world.storage u.world.log

theorem addTask_eq (s : Host) (t : Task) :
    s.addTask t = s.withKept (s.engine.store.insert t)
      (s.world.storage.tried (s.engine.store.insert t).tasks)
      (s.world.log ++ if s.world.storage.writeFault.isSome then
        [.saveFailed (s.engine.store.insert t).size] else []) := by
  unfold addTask flush Storage.tried
  change (match s.world.storage.save (s.engine.store.insert t).tasks with
    | .ok _ => _ | .error _ => _) = _
  cases hfault : s.world.storage.writeFault with
  | none =>
    rw [Storage.save_of_faultless hfault, Option.isSome_none, if_neg Bool.false_ne_true,
      List.append_nil]
    rfl
  | some fault =>
    rw [Storage.save_eq_error.2 hfault]
    rfl

@[simp] theorem config_withKept (s : Host) (store : Store) (storage : Storage)
    (log : List Event) : (s.withKept store storage log).engine.config = s.engine.config := rfl

theorem stopInterval_withKept (store : Store) (storage : Storage) (log : List Event) (id : String) :
    (s.withKept store storage log).stopInterval id =
      (s.stopInterval id).withKept store storage log := by
  have htimer : (s.withKept store storage log).intervalTimer? id = s.intervalTimer? id := rfl
  unfold stopInterval
  rw [htimer]
  cases s.intervalTimer? id <;> rfl

theorem startInterval_withKept (store : Store) (storage : Storage) (log : List Event) (t : Task) :
    (s.withKept store storage log).startInterval t =
      ((s.startInterval t).1, (s.startInterval t).2.withKept store storage log) := by
  unfold startInterval
  rw [stopInterval_withKept]
  cases t.schedule.every? with
  | none => rfl
  | some every =>
    simp only [config_withKept]
    cases Period.ofMillis? ((s.stopInterval t.id).engine.config.ticksToMillis every.ticks) <;> rfl

/-- The timer of a task that is taken up does not depend on what is stored. -/
theorem takeUp_withKept (store : Store) (storage : Storage) (log : List Event) (t : Task) :
    (s.withKept store storage log).takeUp t =
      ((s.takeUp t).1, (s.takeUp t).2.withKept store storage log) := by
  have hrunning : (s.withKept store storage log).engine.running = s.engine.running := rfl
  unfold takeUp
  rw [startInterval_withKept, hrunning]
  split <;> rfl

/-- Adding a task and taking it up, once as it is and once squeezed. -/
theorem takeUp_addTask_squeezed (s : Host) (t : Task) :
    ((s.addTask t.squeezed).takeUp t.squeezed).1 = ((s.addTask t).takeUp t).1 ∧
      Squeezed s t.id ((s.addTask t).takeUp t).2
        ((s.addTask t.squeezed).takeUp t.squeezed).2 := by
  have hadded : s.addTask t.squeezed = (s.addTask t).withKept (s.engine.store.insert t.squeezed)
      (s.world.storage.tried (s.engine.store.insert t.squeezed).tasks) (s.addTask t).world.log := by
    rw [addTask_eq, addTask_eq, Store.size_insert_squeezed]
    rfl
  have htaken : (s.addTask t.squeezed).takeUp t.squeezed = (((s.addTask t).takeUp t).1,
      ((s.addTask t).takeUp t).2.withKept (s.engine.store.insert t.squeezed)
        (s.world.storage.tried (s.engine.store.insert t.squeezed).tasks)
        (s.addTask t).world.log) := by
    rw [hadded]
    exact takeUp_withKept _ _ _ t
  have hbare := bare_takeUp (s.addTask t) t
  have hstore : ((s.addTask t).takeUp t).2.engine.store = s.engine.store.insert t :=
    (congrArg (·.engine.store) hbare :).trans (by rw [addTask_eq]; rfl)
  have hstorage : ((s.addTask t).takeUp t).2.world.storage =
      s.world.storage.tried (s.engine.store.insert t).tasks :=
    (congrArg (·.world.storage) hbare :).trans (by rw [addTask_eq]; rfl)
  have hlog : ((s.addTask t).takeUp t).2.world.log = (s.addTask t).world.log :=
    (congrArg (·.world.log) hbare :)
  rw [htaken]
  refine ⟨rfl, ?_, ?_, ?_, rfl, ?_⟩
  · rw [hstore, ← Store.contains_iff, Store.contains, Store.get?_insert_self]
    rfl
  · rw [hstore]
    exact Store.tasks_insert_squeezed _ t
  · rw [hstorage, hstore]
  · rw [hlog]
    rfl

theorem createTask_squeezed {commands squeezed time days : String} {spec : Spec}
    (h : Spec.parse commands time days = .ok spec)
    (h' : Spec.parse squeezed time days = .ok spec.squeezed) :
    ∃ result : Except EngineFault Unit, ∃ u u', Squeezed s s.drawId.1 u u' ∧
      s.createTask commands time days =
        ((result.map fun _ => s.drawId.1).mapError CreateFault.engine, u) ∧
      s.createTask squeezed time days =
        ((result.map fun _ => s.drawId.1).mapError CreateFault.engine, u') := by
  let t := Task.ofSpec s.drawId.1 spec
  obtain ⟨htaken, hsqueezed⟩ := takeUp_addTask_squeezed s.drawId.2 t
  have hsame : Squeezed s s.drawId.1 _ _ := ⟨hsqueezed.mem_ids, hsqueezed.tasks,
    hsqueezed.storage, hsqueezed.storage', hsqueezed.rest⟩
  refine ⟨((s.drawId.2.addTask t).takeUp t).1, _, _, hsame, ?_, ?_⟩
  · rw [createTask, h]
  · rw [createTask, h', ← htaken]
    rfl

/-- What a line that asks for a task does beside what the service does: its answer tells what
became of it, and the blanks in the commands of a task that it creates are squeezed. -/
inductive CreatesAlike (s : Host) (caller : String) :
    Except CreateFault String × Host → Reply × Host → Prop
  | refused (e : ClauseError) :
    CreatesAlike s caller (.error (.clause e), s) (.refused (.clause e), s)
  | created {id : String} {u u' : Host} (h : Squeezed s id u u') :
    CreatesAlike s caller (.ok id, u) (.lines ["Task created: " ++ id], u')
  /-- With ticks of no length the timer of the task cannot be started. -/
  | brokenOff {id name : String} {e : EngineFault} {u u' : Host} (h : Squeezed s id u u') :
    CreatesAlike s caller (.error (.engine e), u)
      (.brokenOff .create, u'.note (.lineFailed name caller))

/-- A line that asks for a task does what the service does with the same clauses, if the words of
the commands clause but the last one do not end with a closing brace. -/
theorem createsAlike_line {commands time days : String} {c : CommandsClause} (s : Host)
    (caller : String) (h : CommandsClause.parse commands = .ok c)
    (hcut : commands.stripBlanks = commands)
    (hinner : ∀ w ∈ commands.blankSeparated.dropLast, Arguments.closes w = false)
    (htime : IsWord time) (hdays : IsWord days) :
    CreatesAlike s caller (s.createTask commands time days)
      (s.answerLine caller (createLine commands time days)) := by
  have hline := s.answerLine_of_verb? caller (verb?_createLine commands htime hdays)
  have hrejoin := rejoin_createLine time days hcut h hinner
  have hparse := Spec.parse_squeezed time days hcut h
  simp only [answerVerb, answerCreate, hrejoin] at hline
  cases hspec : Spec.parse commands time days with
  | error e =>
    rw [hspec] at hparse
    have hrefused : s.createTask commands time days = (.error (.clause e), s) := by
      rw [createTask, hspec]
    have hrefused' : s.createTask commands.squeezed time days = (.error (.clause e), s) := by
      rw [createTask, hparse]
      rfl
    rw [hrefused'] at hline
    obtain ⟨v, name, u, hbroken, -⟩ | ⟨-, hanswer⟩ := hline
    · cases hbroken
    · rw [hrefused, hanswer]
      exact .refused e
  | ok spec =>
    rw [hspec] at hparse
    obtain ⟨result, u, u', hsqueezed, hcreated, hcreated'⟩ :=
      createTask_squeezed (s := s) hspec hparse
    rw [hcreated'] at hline
    rw [hcreated]
    cases result with
    | ok _ =>
      obtain ⟨v, name, u, hbroken, -⟩ | ⟨-, hanswer⟩ := hline
      · cases hbroken
      · rw [hanswer]
        exact .created hsqueezed
    | error e =>
      obtain ⟨v, name, u, hbroken, hanswer⟩ | ⟨hne, -⟩ := hline
      · cases hbroken
        rw [hanswer]
        exact .brokenOff hsqueezed
      · exact absurd rfl (hne .create)

/-- A tab and two spaces become a space each. -/
theorem createsAlike_greeting :
    CommandsClause.parse "\x7b/say\thi,  All,/wave  twice\x7d" =
        .ok ⟨["/say\thi", "/wave  twice"], .staggered, 0⟩ ∧
      CreatesAlike chimeHost "Ann"
        (chimeHost.createTask "\x7b/say\thi,  All,/wave  twice\x7d" "E" "Eve,5s")
        (chimeHost.answerLine "Ann"
          (createLine "\x7b/say\thi,  All,/wave  twice\x7d" "E" "Eve,5s")) := by
  have hparse : CommandsClause.parse "\x7b/say\thi,  All,/wave  twice\x7d" =
      .ok ⟨["/say\thi", "/wave  twice"], .staggered, 0⟩ := by decide +kernel
  exact ⟨hparse, createsAlike_line chimeHost "Ann" hparse (by decide +kernel)
    (by decide +kernel) (by decide +kernel) (by decide +kernel)⟩

/-- A word within the clause ends with a brace: the service creates a task, and the line, which
takes that word for the end of the clause, is refused. -/
theorem not_createsAlike_innerBrace :
    CommandsClause.parse "\x7b/say \x7d hi\x7d" = .ok ⟨["/say \x7d hi"], .single, 0⟩ ∧
      "\x7b/say \x7d hi\x7d".stripBlanks = "\x7b/say \x7d hi\x7d" ∧
      IsWord "14:00" ∧ IsWord "Eve" ∧
      ¬ CreatesAlike chimeHost "Ann" (chimeHost.createTask "\x7b/say \x7d hi\x7d" "14:00" "Eve")
        (chimeHost.answerLine "Ann" (createLine "\x7b/say \x7d hi\x7d" "14:00" "Eve")) := by
  have hcreated : (chimeHost.createTask "\x7b/say \x7d hi\x7d" "14:00" "Eve").1 =
      .ok "00000001-0000-4000-8000-000000000000" := by decide +kernel
  have hrefused : (chimeHost.answerLine "Ann"
      (createLine "\x7b/say \x7d hi\x7d" "14:00" "Eve")).1 =
        .refused (.clause (.notTime "hi\x7d")) := by decide +kernel
  refine ⟨by decide +kernel, by decide +kernel, by decide +kernel, by decide +kernel, ?_⟩
  intro h
  generalize chimeHost.createTask "\x7b/say \x7d hi\x7d" "14:00" "Eve" = created at h hcreated
  generalize chimeHost.answerLine "Ann" (createLine "\x7b/say \x7d hi\x7d" "14:00" "Eve") =
    answered at h hrefused
  cases h with
  | refused e => cases hcreated
  | created h => cases hrefused
  | brokenOff h => cases hcreated

end Host

end Cadence
