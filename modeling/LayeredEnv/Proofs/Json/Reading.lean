import LayeredEnv.Proofs.Json.Token
import LayeredEnv.Proofs.Fields

set_option autoImplicit false

namespace LayeredEnv.Json

def Number.InWord : Number → Prop
  | .int n => Word n
  | .float _ => True

def Token.InWord : Token → Prop
  | .num value => value.InWord
  | _ => True

theorem accumulate_lt {digits left : List Char} {start value : Nat} (small : start < Nat.pow 2 64)
    (read : accumulate start digits = (value, left)) : value < Nat.pow 2 64 := by
  induction digits generalizing start with
  | nil =>
    cases read
    exact small
  | cons c rest ih =>
    simp only [accumulate] at read
    split at read
    next fits => exact ih fits read
    next =>
      cases read
      exact small

theorem float?_inWord {numeral : Numeral} {value : Number} (read : numeral.float? = some value) :
    value.InWord := by
  simp only [Numeral.float?, Option.map_eq_some_iff] at read
  obtain ⟨_, _, rfl⟩ := read
  trivial

theorem value?_inWord {numeral : Numeral} {value : Number} (read : numeral.value? = some value) :
    value.InWord := by
  unfold Numeral.value? at read
  split at read
  next total _ _ digits =>
    have bound : total < 2 ^ 64 := accumulate_lt (Nat.two_pow_pos 64) digits
    split at read
    next =>
      cases read
      constructor <;> omega
    next =>
      split at read
      next small =>
        simp only [Bool.and_eq_true, decide_eq_true_eq] at small
        have upper : total ≤ 2 ^ 63 := small.2
        cases read
        constructor <;> omega
      next => exact float?_inWord read
  next => exact float?_inWord read

theorem readNumber?_inWord {negative : Bool} {text rest : List Char} {token : Token}
    (read : readNumber? negative text = some (token, rest)) : token.InWord := by
  simp only [readNumber?] at read
  split at read
  next => cases read
  next =>
    simp only [Option.bind_eq_bind, Option.bind_eq_some_iff, Prod.exists, Option.some.injEq,
      Prod.mk.injEq] at read
    obtain ⟨_, _, _, _, _, _, value, found, rfl, _⟩ := read
    exact value?_inWord found

theorem readToken?_inWord {text rest : List Char} {token : Token}
    (read : readToken? text = some (token, rest)) : token.InWord := by
  unfold readToken? at read
  split at read
  case h_7 =>
    obtain ⟨_, _, same⟩ := Option.map_eq_some_iff.mp read
    cases same
    trivial
  case h_8 => exact readNumber?_inWord read
  case h_12 => exact readNumber?_inWord read
  all_goals
    cases read
    trivial

theorem lex?_inWord {text : List Char} {tokens : List Token} (read : lex? text = some tokens) :
    ∀ token ∈ tokens, token.InWord := by
  induction text using lex?.induct generalizing tokens with
  | case1 =>
    rw [lex?_nil] at read
    cases read
    exact fun _ member => absurd member List.not_mem_nil
  | case2 c rest space ih =>
    rw [lex?, if_pos space] at read
    exact ih read
  | case3 c rest proper refused =>
    rw [lex?_refused (Bool.eq_false_iff.mpr proper) refused] at read
    cases read
  | case4 c rest proper token after found ih =>
    rw [lex?_token (Bool.eq_false_iff.mpr proper) found] at read
    obtain ⟨later, behind, rfl⟩ := Option.map_eq_some_iff.mp read
    exact List.forall_mem_cons.mpr ⟨readToken?_inWord found, ih behind⟩

/-- A value that can be read where so many more containers may be open. -/
inductive Readable : Nat → Json → Prop
  | null (room : Nat) : Readable room .null
  | bool (room : Nat) (value : Bool) : Readable room (.bool value)
  | num (room : Nat) (value : Number) (word : value.InWord) : Readable room (.num value)
  | str (room : Nat) (value : String) : Readable room (.str value)
  | arr (room : Nat) (items : List Json) (inner : ∀ item ∈ items, Readable room item) :
    Readable (room + 1) (.arr items)
  | obj (room : Nat) (fields : Fields) (distinct : fields.keys.Nodup)
      (inner : ∀ entry ∈ fields, Readable room entry.2) :
    Readable (room + 1) (.obj fields)

def Frame.Sound (room : Nat) : Frame → Prop
  | .items reversed => ∀ item ∈ reversed, Readable room item
  | .fields done | .field done _ =>
    (Fields.keys done).Nodup ∧ ∀ entry ∈ done, Readable room entry.2

inductive Stacked : Nat → List Frame → Prop
  | nil : Stacked Progress.depthLimit []
  | cons (room : Nat) (frame : Frame) (outer : List Frame) (sound : frame.Sound room)
      (below : Stacked (room + 1) outer) :
    Stacked room (frame :: outer)

theorem Stacked.length {room : Nat} {frames : List Frame} (stacked : Stacked room frames) :
    frames.length + room = Progress.depthLimit := by
  induction stacked with
  | nil => rfl
  | cons room frame outer _ _ ih => simp only [List.length_cons]; omega

namespace Progress

theorem enter_eq_some {frames : List Frame} {frame : Frame} {expected : Expected} {next : Progress}
    (entered : enter frames frame expected = some next) :
    frames.length < depthLimit ∧ next = ⟨frame :: frames, expected⟩ := by
  rw [enter] at entered
  split at entered
  next shallow => exact ⟨shallow, (Option.some.inj entered).symm⟩
  next => cases entered

-- One constructor for each way that `step` goes on; a token that fits none is refused.
inductive Step : Progress → Token → Progress → Prop
  | value {frames : List Frame} {expected : Expected} {token : Token} {next : Progress}
      (waiting : ∀ value, expected ≠ .finished value)
      (stepped : stepValue frames token = some next) : Step ⟨frames, expected⟩ token next
  | closeEmptyArray {reversed : List Json} {outer : List Frame} {next : Progress}
      (placed : place (.arr []) outer = some next) :
      Step ⟨.items reversed :: outer, .itemOrClose⟩ .endArray next
  | closeEmptyObject {done : Fields} {outer : List Frame} {next : Progress}
      (placed : place (.obj []) outer = some next) :
      Step ⟨.fields done :: outer, .fieldOrClose⟩ .endObject next
  | key {frames : List Frame} {expected : Expected} {text : List Char}
      (waiting : ∀ value, expected ≠ .finished value) :
      Step ⟨frames, expected⟩ (.str text) ⟨frames, .colon (String.ofList text)⟩
  | colon {done : Fields} {key : String} {outer : List Frame} :
      Step ⟨.fields done :: outer, .colon key⟩ .colon ⟨.field done key :: outer, .value⟩
  | nextItem {reversed : List Json} {outer : List Frame} :
      Step ⟨.items reversed :: outer, .separator⟩ .comma ⟨.items reversed :: outer, .value⟩
  | closeArray {reversed : List Json} {outer : List Frame} {next : Progress}
      (placed : place (.arr reversed.reverse) outer = some next) :
      Step ⟨.items reversed :: outer, .separator⟩ .endArray next
  | nextField {done : Fields} {outer : List Frame} :
      Step ⟨.fields done :: outer, .separator⟩ .comma ⟨.fields done :: outer, .key⟩
  | closeObject {done : Fields} {outer : List Frame} {next : Progress}
      (placed : place (.obj done) outer = some next) :
      Step ⟨.fields done :: outer, .separator⟩ .endObject next

theorem step_cases {progress next : Progress} {token : Token}
    (stepped : progress.step token = some next) : Step progress token next := by
  obtain ⟨frames, expected⟩ := progress
  simp only [step] at stepped
  split at stepped
  case h_1 | h_3 => exact .value (by simp) stepped
  case h_2 => exact .closeEmptyArray stepped
  case h_4 => exact .closeEmptyObject stepped
  case h_5 | h_6 =>
    cases stepped
    exact .key (by simp)
  case h_7 =>
    cases stepped
    exact .colon
  case h_8 =>
    cases stepped
    exact .nextItem
  case h_9 => exact .closeArray stepped
  case h_10 =>
    cases stepped
    exact .nextField
  case h_11 => exact .closeObject stepped
  case h_12 => cases stepped

structure Sound (progress : Progress) : Prop where
  frames : ∃ room, Stacked room progress.frames
  result : ∀ value, progress.expected = .finished value → Readable depthLimit value

theorem sound_of_waiting {room : Nat} {frames : List Frame} {expected : Expected}
    (stacked : Stacked room frames) (waiting : ∀ value, expected ≠ .finished value) :
    Sound ⟨frames, expected⟩ :=
  ⟨⟨room, stacked⟩, fun value same => absurd same (waiting value)⟩

theorem place_sound {room : Nat} {frames : List Frame} {value : Json} {next : Progress}
    (stacked : Stacked room frames) (readable : Readable room value)
    (placed : place value frames = some next) : next.Sound := by
  cases stacked with
  | nil =>
    cases placed
    refine ⟨⟨_, .nil⟩, fun other same => ?_⟩
    cases same
    exact readable
  | cons room frame outer sound below =>
    cases frame with
    | items reversed =>
      cases placed
      refine sound_of_waiting (.cons room _ outer ?_ below) (by simp)
      exact List.forall_mem_cons.mpr ⟨readable, sound⟩
    | fields done => cases placed
    | field done key =>
      cases placed
      refine sound_of_waiting (.cons room _ outer ⟨?_, ?_⟩ below) (by simp)
      · exact Fields.keys_set_nodup sound.1 key value
      · intro entry member
        rcases Fields.mem_set member with rfl | before
        · exact readable
        · exact sound.2 entry before

theorem enter_sound {room : Nat} {frames : List Frame} {frame : Frame} {expected : Expected}
    {next : Progress} (stacked : Stacked room frames) (empty : ∀ room, frame.Sound room)
    (waiting : ∀ value, expected ≠ .finished value)
    (entered : enter frames frame expected = some next) : next.Sound := by
  obtain ⟨shallow, rfl⟩ := enter_eq_some entered
  -- Fewer frames than the limit leave room for one more.
  have total := stacked.length
  obtain ⟨inside, rfl⟩ : ∃ inside, room = inside + 1 := ⟨room - 1, by omega⟩
  exact sound_of_waiting (.cons inside frame frames (empty inside) stacked) waiting

theorem stepValue_sound {room : Nat} {frames : List Frame} {token : Token} {next : Progress}
    (stacked : Stacked room frames) (word : token.InWord)
    (stepped : stepValue frames token = some next) : next.Sound := by
  cases token with
  | beginArray => exact enter_sound stacked (fun _ => by simp [Frame.Sound]) (by simp) stepped
  | beginObject =>
    exact enter_sound stacked (fun _ => by simp [Frame.Sound, Fields.keys]) (by simp) stepped
  | null => exact place_sound stacked (.null room) stepped
  | bool value => exact place_sound stacked (.bool room value) stepped
  | num value => exact place_sound stacked (.num room value word) stepped
  | str value => exact place_sound stacked (.str room _) stepped
  | _ => cases stepped

theorem step_sound {progress next : Progress} {token : Token} (sound : progress.Sound)
    (word : token.InWord) (stepped : progress.step token = some next) : next.Sound := by
  obtain ⟨⟨room, stacked⟩, _⟩ := sound
  cases step_cases stepped with
  | value _ stepped => exact stepValue_sound stacked word stepped
  | closeEmptyArray placed =>
    cases stacked with
    | cons room _ _ _ below => exact place_sound below (.arr room [] (by simp)) placed
  | closeEmptyObject placed =>
    cases stacked with
    | cons room _ _ _ below =>
      exact place_sound below (.obj room [] List.nodup_nil (by simp)) placed
  | colon =>
    cases stacked with
    | cons room _ _ held below =>
      exact sound_of_waiting (.cons room (.field _ _) _ held below) (by simp)
  | closeArray placed =>
    -- Items were collected in reverse.
    cases stacked with
    | cons room _ _ held below =>
      refine place_sound below (.arr room _ fun item member => ?_) placed
      exact held item (List.mem_reverse.mp member)
  | closeObject placed =>
    cases stacked with
    | cons room _ _ held below => exact place_sound below (.obj room _ held.1 held.2) placed
  | key | nextItem | nextField => exact sound_of_waiting stacked (by simp)

theorem run_induction {Inv : Progress → Prop} {tokens : List Token} {first last : Progress}
    (holds : Inv first)
    (keeps : ∀ {progress next : Progress} {token : Token}, token ∈ tokens → Inv progress →
      progress.step token = some next → Inv next)
    (run : tokens.foldlM step first = some last) : Inv last := by
  induction tokens generalizing first with
  | nil =>
    cases run
    exact holds
  | cons token rest ih =>
    rw [List.foldlM_cons, Option.bind_eq_bind, Option.bind_eq_some_iff] at run
    obtain ⟨next, stepped, later⟩ := run
    exact ih (keeps (by simp) holds stepped) (fun member => keeps (List.mem_cons_of_mem _ member))
      later

theorem run_sound {tokens : List Token} {progress last : Progress} (sound : progress.Sound)
    (words : ∀ token ∈ tokens, token.InWord) (run : tokens.foldlM step progress = some last) :
    last.Sound :=
  run_induction sound (fun member held stepped => step_sound held (words _ member) stepped) run

end Progress

theorem Progress.value?_eq_some {progress : Progress} {json : Json}
    (value : progress.value? = some json) : progress.expected = .finished json := by
  unfold value? at value
  split at value
  next same =>
    cases value
    exact same
  next => cases value

theorem readable_of_read? {text : String} {json : Json} (read : read? text = some json) :
    Readable Progress.depthLimit json := by
  simp only [read?, Option.bind_eq_bind, Option.bind_eq_some_iff] at read
  obtain ⟨tokens, cut, last, run, value⟩ := read
  have start : Progress.start.Sound := Progress.sound_of_waiting .nil (by simp)
  have sound := Progress.run_sound start (lex?_inWord cut) run
  exact sound.result json (Progress.value?_eq_some value)

def isContainer : Json → Bool
  | .arr _ | .obj _ => true
  | _ => false

namespace Progress

def Bracketed (progress : Progress) : Prop :=
  (progress.frames ≠ [] ∧ ∀ value, progress.expected ≠ .finished value) ∨
    ∃ value, progress.expected = .finished value ∧ value.isContainer = true

theorem place_bracketed {frames : List Frame} {value : Json} {next : Progress}
    (inside : frames ≠ [] ∨ value.isContainer = true) (placed : place value frames = some next) :
    next.Bracketed := by
  cases frames with
  | nil =>
    cases placed
    exact .inr ⟨value, rfl, inside.resolve_left (absurd rfl)⟩
  | cons frame outer =>
    cases frame <;> cases placed <;> exact .inl ⟨List.cons_ne_nil _ _, by simp⟩

theorem enter_bracketed {frames : List Frame} {frame : Frame} {expected : Expected}
    {next : Progress} (waiting : ∀ value, expected ≠ .finished value)
    (entered : enter frames frame expected = some next) : next.Bracketed := by
  obtain ⟨_, rfl⟩ := enter_eq_some entered
  exact .inl ⟨List.cons_ne_nil _ _, waiting⟩

theorem stepValue_bracketed {frames : List Frame} {token : Token} {next : Progress}
    (inside : frames ≠ []) (stepped : stepValue frames token = some next) : next.Bracketed := by
  cases token with
  | beginArray | beginObject => exact enter_bracketed (by simp) stepped
  | null | bool | num | str => exact place_bracketed (.inl inside) stepped
  | _ => cases stepped

theorem Bracketed.inside {frames : List Frame} {expected : Expected}
    (bracketed : Bracketed ⟨frames, expected⟩) (waiting : ∀ value, expected ≠ .finished value) :
    frames ≠ [] := by
  rcases bracketed with ⟨inside, _⟩ | ⟨value, finished, _⟩
  · exact inside
  · exact absurd finished (waiting value)

theorem step_bracketed {progress next : Progress} {token : Token}
    (bracketed : progress.Bracketed) (stepped : progress.step token = some next) :
    next.Bracketed := by
  cases step_cases stepped with
  | value waiting stepped => exact stepValue_bracketed (bracketed.inside waiting) stepped
  | closeEmptyArray placed | closeEmptyObject placed | closeArray placed | closeObject placed =>
    exact place_bracketed (.inr rfl) placed
  | key waiting => exact .inl ⟨bracketed.inside waiting, by simp⟩
  | colon | nextItem | nextField => exact .inl ⟨List.cons_ne_nil _ _, by simp⟩

theorem run_bracketed {tokens : List Token} {progress last : Progress}
    (bracketed : progress.Bracketed) (run : tokens.foldlM step progress = some last) :
    last.Bracketed :=
  run_induction bracketed (fun _ held stepped => step_bracketed held stepped) run

end Progress

theorem isContainer_of_read? {opening : Char} {rest : List Char} {json : Json}
    (bracket : opening = '[' ∨ opening = '\x7b')
    (read : read? (String.ofList (opening :: rest)) = some json) : json.isContainer = true := by
  have first : ∃ token, readToken? (opening :: rest) = some (token, rest) ∧
      isJsonSpace opening = false ∧
      ∀ next, Progress.start.step token = some next → next.Bracketed := by
    rcases bracket with rfl | rfl
    · refine ⟨.beginArray, rfl, rfl, fun next entered => ?_⟩
      change Progress.enter [] (.items []) .itemOrClose = some next at entered
      exact Progress.enter_bracketed (by simp) entered
    · refine ⟨.beginObject, rfl, rfl, fun next entered => ?_⟩
      change Progress.enter [] (.fields []) .fieldOrClose = some next at entered
      exact Progress.enter_bracketed (by simp) entered
  obtain ⟨token, cut, proper, entering⟩ := first
  simp only [read?, String.toList_ofList, lex?_token proper cut, Option.bind_eq_bind,
    Option.bind_eq_some_iff, Option.map_eq_some_iff] at read
  obtain ⟨_, ⟨tokens, _, rfl⟩, last, run, value⟩ := read
  rw [List.foldlM_cons, Option.bind_eq_bind, Option.bind_eq_some_iff] at run
  obtain ⟨next, stepped, later⟩ := run
  have finished := Progress.value?_eq_some value
  rcases Progress.run_bracketed (entering next stepped) later with
    ⟨_, waiting⟩ | ⟨other, same, container⟩
  · exact absurd finished (waiting json)
  · rw [finished] at same
    cases same
    exact container

end LayeredEnv.Json
