import Deferred.Proofs.Telemetry.Numerals
import Deferred.Proofs.Telemetry.Range
import Mathlib.Data.List.Forall2

/-!
# Reports are read back

The report on a snapshot is a JSON object, and reading it gives back its names in their order, the
counters to the last digit, and a number for every derived quantity. So two snapshots with the same
report have the same counters.

* `Report.Reads` says what an entry of a report is read as.
* `Report.read?_render`: an object is read as its entries are.
* `Report.value` is what the report on a snapshot says, `Report.integers_read_back`: it is read as
  that.
-/

namespace Deferred

open Json

/-! ## Tokens -/

namespace Json

variable {c : Char} {read word rest : List Char}

/-- A character is part of a word. -/
def IsWordPart (c : Char) : Prop := c ≠ '"' ∧ marks? c = none

/-- A character stands for itself in a string. -/
def IsPlain (c : Char) : Bool := c != '"' && c != '\\' && ' ' ≤ c

theorem tokens?_word (h : ∀ c ∈ word, IsWordPart c) :
    tokens? (.word read) (word ++ rest) = tokens? (.word (read ++ word)) rest := by
  induction word generalizing read with
  | nil => rw [List.nil_append, List.append_nil]
  | cons c word ih =>
    obtain ⟨hquote, hmarks⟩ := h c List.mem_cons_self
    rw [List.cons_append, tokens?, if_neg hquote, hmarks]
    dsimp only
    rw [ih fun c hc => h c (List.mem_cons_of_mem _ hc), List.append_assoc, List.singleton_append]

/-- A mark after a word, of which there need not be any character. -/
theorem tokens?_mark {marks : List Token} (hquote : c ≠ '"') (h : marks? c = some marks) :
    tokens? (.word read) (c :: rest) =
      (tokens? (.word []) rest).bind fun later => endWord read (marks ++ later) := by
  rw [tokens?, if_neg hquote, h]

theorem tokens?_mark_nil {marks : List Token} (hquote : c ≠ '"') (h : marks? c = some marks) :
    tokens? (.word []) (c :: rest) = (tokens? (.word []) rest).map (marks ++ ·) := by
  rw [tokens?_mark hquote h]
  cases tokens? (.word []) rest <;> rfl

theorem tokens?_blank (hquote : c ≠ '"') (h : marks? c = some []) :
    tokens? (.word []) (c :: rest) = tokens? (.word []) rest :=
  (tokens?_mark_nil hquote h).trans (congrFun Option.map_id _)

/-- A word that ends at a mark. -/
theorem tokens?_word_mark {marks : List Token} {v : Json} (hw : ∀ c ∈ word, IsWordPart c)
    (hne : word ≠ []) (hv : ofWord? word = some v) (hquote : c ≠ '"')
    (h : marks? c = some marks) :
    tokens? (.word []) (word ++ c :: rest) =
      (tokens? (.word []) rest).map fun later => .value v :: (marks ++ later) := by
  rw [tokens?_word hw, List.nil_append, tokens?_mark hquote h]
  cases tokens? (.word []) rest with
  | none => rfl
  | some later => rw [Option.bind_some, endWord, if_neg hne, hv, Option.map_some, Option.map_some]

theorem isPlain_iff : IsPlain c ↔ c ≠ '"' ∧ c ≠ '\\' ∧ ¬ c < ' ' := by
  simp only [IsPlain, Bool.and_eq_true, bne_iff_ne, decide_eq_true_eq, and_assoc, Char.not_lt]

theorem tokens?_plain (h : ∀ c ∈ word, IsPlain c) :
    tokens? (.text read) (word ++ rest) = tokens? (.text (read ++ word)) rest := by
  induction word generalizing read with
  | nil => rw [List.nil_append, List.append_nil]
  | cons c word ih =>
    obtain ⟨hquote, hescape, hcontrol⟩ := isPlain_iff.1 (h c List.mem_cons_self)
    rw [List.cons_append, tokens?, if_neg hquote, if_neg hescape, if_neg hcontrol,
      ih fun c hc => h c (List.mem_cons_of_mem _ hc), List.append_assoc, List.singleton_append]

theorem unescape?_plain (h : ∀ c ∈ word, IsPlain c) : unescape? none word = some word := by
  induction word with
  | nil => rfl
  | cons c word ih =>
    obtain ⟨-, hescape, -⟩ := isPlain_iff.1 (h c List.mem_cons_self)
    rw [unescape?, ih fun c hc => h c (List.mem_cons_of_mem _ hc)]
    · rfl
    · exact fun _ _ _ _ _ he => absurd he hescape
    · exact fun _ _ he => absurd he hescape

/-- A string of characters that stand for themselves. -/
theorem tokens?_text {text : String} (h : ∀ c ∈ text.toList, IsPlain c) :
    tokens? (.word []) ('"' :: (text.toList ++ '"' :: rest)) =
      (tokens? (.word []) rest).map (.text text :: ·) := by
  rw [tokens?, if_pos rfl, tokens?_plain h, List.nil_append, tokens?, if_pos rfl,
    unescape?_plain h]
  cases tokens? (.word []) rest with
  | none => rfl
  | some later =>
    refine congrArg some (congrArg (· :: later) ?_)
    rw [String.ofList_toList]

end Json

/-! ## Entries -/

namespace Report

/-- What an entry of a report is read as. -/
structure Reads (entry : String × Number) (member : String × Json) : Prop where
  name : entry.1 = member.1
  isPlain : ∀ c ∈ entry.1.toList, IsPlain c
  isWordPart : ∀ c ∈ entry.2.render, IsWordPart c
  ne_nil : entry.2.render ≠ []
  ofWord? : Json.ofWord? entry.2.render = some member.2

variable {entry : String × Number} {member : String × Json} {entries : List (String × Number)}
  {members : List (String × Json)} {rest : List Char}

/-- The tokens of a member. -/
def memberTokens (member : String × Json) : List Token :=
  [.text member.1, .colon, .value member.2]

/-- The tokens of some members, with a comma after each but the last. -/
def tokensOf : List (String × Json) → List Token
  | [] => []
  | [member] => memberTokens member
  | member :: rest => memberTokens member ++ .comma :: tokensOf rest

theorem tokens?_renderEntry {c : Char} {marks : List Token} (h : Reads entry member)
    (hquote : c ≠ '"') (hmarks : marks? c = some marks) :
    tokens? (.word []) (renderEntry entry ++ c :: rest) =
      (tokens? (.word []) rest).map fun later => memberTokens member ++ (marks ++ later) := by
  have hblank : ∀ text, tokens? (.word []) (' ' :: text) = tokens? (.word []) text :=
    fun text => tokens?_blank (by decide) rfl
  have hcolon : ∀ text, tokens? (.word []) (':' :: text) =
      (tokens? (.word []) text).map ([.colon] ++ ·) :=
    fun text => tokens?_mark_nil (by decide) rfl
  have hnumber : tokens? (.word []) (entry.2.render ++ c :: rest) =
      (tokens? (.word []) rest).map fun later => .value member.2 :: (marks ++ later) :=
    tokens?_word_mark h.isWordPart h.ne_nil h.ofWord? hquote hmarks
  rw [renderEntry]
  simp only [List.cons_append, List.append_assoc]
  rw [hblank, hblank, tokens?_text h.isPlain, hcolon, hblank, hnumber, Option.map_map,
    Option.map_map, h.name]
  rfl

theorem tokens?_renderEntries (h : List.Forall₂ Reads entries members) :
    tokens? (.word []) (renderEntries entries ++ ['}']) =
      some (tokensOf members ++ [.closeObject]) := by
  induction h with
  | nil => rfl
  | @cons entry member entries members hentry hrest ih =>
    cases hrest with
    | nil =>
      rw [renderEntries, List.append_assoc, List.singleton_append,
        tokens?_renderEntry hentry (by decide) rfl]
      rfl
    | @cons next nextMember entries members hnext hlater =>
      have hlines : renderEntries (entry :: next :: entries) =
          renderEntry entry ++ ',' :: '\n' :: renderEntries (next :: entries) := rfl
      have htokens : tokensOf (member :: nextMember :: members) =
          memberTokens member ++ .comma :: tokensOf (nextMember :: members) := rfl
      rw [hlines, htokens, List.append_assoc, List.cons_append, List.cons_append,
        tokens?_renderEntry hentry (by decide) rfl, tokens?_blank (by decide) rfl, ih,
        Option.map_some, List.append_assoc]
      rfl

/-- The members of an object are read one after the other, where a name may follow. -/
theorem foldlM_tokensOf {r : Reader} (read : List (String × Json)) {stack : List Json.Frame}
    (hne : members ≠ []) (hr : ∀ name, r.step? (.text name) = some (.colon read name stack)) :
    (tokensOf members ++ [Token.closeObject]).foldlM Reader.step? r =
      some (Reader.complete (.object (read ++ members)) stack) := by
  induction members generalizing r read with
  | nil => exact absurd rfl hne
  | cons member members ih =>
    have hmember : (memberTokens member).foldlM Reader.step? r =
        some (.member (read ++ [member]) stack) := by
      rw [memberTokens, List.foldlM_cons, hr]
      rfl
    cases members with
    | nil =>
      rw [tokensOf, List.foldlM_append, hmember]
      rfl
    | cons next members =>
      -- the comma leads from the end of a member to where a name follows
      have hnext := ih (r := .nextName (read ++ [member]) stack) _ (List.cons_ne_nil _ _)
        fun name => rfl
      rw [List.append_assoc, List.singleton_append] at hnext
      rw [tokensOf, List.append_assoc, List.foldlM_append, hmember]
      · exact hnext
      · exact List.cons_ne_nil _ _

/-- An object is read as its entries are. -/
theorem read?_render (h : List.Forall₂ Reads entries members) (hne : members ≠ []) :
    read? (String.ofList (render entries)) = some (.object members) := by
  have htokens : tokens? (.word []) (render entries) =
      some (.openObject :: (tokensOf members ++ [.closeObject])) := by
    rw [render, List.cons_append, List.cons_append, tokens?_mark_nil (by decide) rfl,
      tokens?_blank (by decide) rfl, tokens?_renderEntries h]
    rfl
  have hfold : (Token.openObject :: (tokensOf members ++ [.closeObject])).foldlM Reader.step?
      (.value []) = some (.done (.object members)) :=
    foldlM_tokensOf (r := .openedObject []) [] hne fun name => rfl
  rw [read?, String.toList_ofList, htokens]
  exact congrArg (Option.bind · Reader.value?) hfold

/-! ## Numbers -/

theorem isWordPart_of_isDigit {c : Char} (h : c.isDigit) : IsWordPart c := by
  refine ⟨?_, ?_⟩
  · rintro rfl
    cases h
  · fun_cases marks? c
    all_goals first | rfl | cases h

theorem isWordPart_of_mem_text {p : Parts} {c : Char} (h : p.IsProper) (hc : c ∈ p.text) :
    IsWordPart c := by
  rcases p.mem_text h hc with hc | hc
  · exact isWordPart_of_isDigit hc
  · simp only [List.mem_cons, List.not_mem_nil, or_false] at hc
    rcases hc with rfl | rfl | rfl | rfl <;> exact ⟨by decide, rfl⟩

/-- An entry whose number is written in parts. -/
theorem reads_of_text {name : String} {x : Number} {p : Parts}
    (hname : name.toList.all IsPlain) (h : p.IsProper) (hx : p.text = x.render) :
    Reads (name, x) (name, .number p.numeral) where
  name := rfl
  isPlain := List.all_eq_true.1 hname
  isWordPart := fun _ hc => isWordPart_of_mem_text h (hx ▸ hc)
  ne_nil := by
    obtain ⟨c, rest, -, htext⟩ := Parts.exists_text_eq h
    rw [← hx, htext]
    exact List.cons_ne_nil _ _
  ofWord? := hx ▸ Parts.ofWord?_text h

theorem reads_whole (name : String) (hname : name.toList.all IsPlain) (n : Nat) :
    Reads (name, .whole n) (name, .number (.ofNat n)) := by
  have hproper : Parts.IsProper ⟨NumeralStyle.digitsOf n, [], none⟩ := by
    refine ⟨fun c hc => ?_, digitsOf_ne_nil, fun hz => ?_⟩
    · rw [List.append_nil] at hc
      exact isDigit_of_mem_digitsOf hc
    · rw [eq_zero_of_head? hz]
      rfl
  have hnumeral : Parts.numeral ⟨NumeralStyle.digitsOf n, [], none⟩ = .ofNat n := by
    rw [Parts.numeral, List.append_nil, ofDigitChars_digitsOf]
    rfl
  rw [← hnumeral]
  exact reads_of_text hname hproper (List.append_nil _)

/-- A numeral stands for a number of the binary format: it is that of its decimal. -/
structure StandsFor (numeral : Numeral) (x : Binary64) : Prop where
  negative : numeral.negative = false
  isWhole : numeral.isWhole = false
  toRat : numeral.decimal.toRat = (decimalOf x).toRat

theorem exists_reads_binary (name : String) (hname : name.toList.all IsPlain) {x : Binary64}
    (hx : x.isFinite) :
    ∃ numeral, StandsFor numeral x ∧ Reads (name, .binary x) (name, .number numeral) := by
  obtain ⟨p, hp, htext⟩ := exists_isWritten_binary x
  refine ⟨p.numeral, ⟨rfl, hp.isWhole, hp.toRat⟩, reads_of_text hname hp.isProper ?_⟩
  rw [Number.render, if_pos hx, htext]

/-! ## The report on a snapshot -/

/-- The numerals of the derived quantities. -/
structure Derived where
  uptime : Numeral
  average : Numeral
  median : Numeral
  late : Numeral
  longest : Numeral
  utilization : Numeral

/-- The numerals are those of the derived quantities of a snapshot. -/
structure Derived.StandFor (d : Derived) (s : Snapshot) : Prop where
  uptime : StandsFor d.uptime (seconds s.uptime)
  average : StandsFor d.average (microseconds s.averageLateness)
  median : StandsFor d.median (microseconds s.medianLateness)
  late : StandsFor d.late (microseconds s.lateness99)
  longest : StandsFor d.longest (microseconds s.maximumLateness)
  utilization : StandsFor d.utilization s.utilization

/-- What the report on a snapshot says: the counters are whole numbers, and so is the busy time, in
full milliseconds. -/
def value (s : Snapshot) (d : Derived) : Json := .object [
  ("uptime_secs", .number d.uptime),
  ("tasks_scheduled", .number (.ofNat s.scheduled.toNat)),
  ("tasks_executed", .number (.ofNat s.executed.toNat)),
  ("tasks_canceled", .number (.ofNat s.canceled.toNat)),
  ("tasks_discarded", .number (.ofNat s.discarded.toNat)),
  ("tasks_panicked", .number (.ofNat s.panicked.toNat)),
  ("busy_time_ms", .number (.ofNat (s.busyTime.toNat / 10 ^ 6))),
  ("avg_lateness_us", .number d.average),
  ("p50_lateness_us", .number d.median),
  ("p99_lateness_us", .number d.late),
  ("max_lateness_us", .number d.longest),
  ("utilization", .number d.utilization)]

theorem exists_read?_report (s : Snapshot) :
    ∃ d : Derived, d.StandFor s ∧ read? s.report = some (value s d) := by
  obtain ⟨uptime, huptime, h₁⟩ :=
    exists_reads_binary "uptime_secs" (by decide) (isFinite_seconds s.uptime)
  obtain ⟨average, haverage, h₂⟩ :=
    exists_reads_binary "avg_lateness_us" (by decide) (isFinite_microseconds s.averageLateness)
  obtain ⟨median, hmedian, h₃⟩ :=
    exists_reads_binary "p50_lateness_us" (by decide) (isFinite_microseconds s.medianLateness)
  obtain ⟨late, hlate, h₄⟩ :=
    exists_reads_binary "p99_lateness_us" (by decide) (isFinite_microseconds s.lateness99)
  obtain ⟨longest, hlongest, h₅⟩ :=
    exists_reads_binary "max_lateness_us" (by decide) (isFinite_microseconds s.maximumLateness)
  obtain ⟨utilization, hutilization, h₆⟩ :=
    exists_reads_binary "utilization" (by decide) (isFinite_utilization s)
  have hentries : List.Forall₂ Reads (entries s) _ :=
    .cons h₁ <| .cons (reads_whole "tasks_scheduled" (by decide) _) <|
      .cons (reads_whole "tasks_executed" (by decide) _) <|
      .cons (reads_whole "tasks_canceled" (by decide) _) <|
      .cons (reads_whole "tasks_discarded" (by decide) _) <|
      .cons (reads_whole "tasks_panicked" (by decide) _) <|
      .cons (reads_whole "busy_time_ms" (by decide) _) <|
      .cons h₂ <| .cons h₃ <| .cons h₄ <| .cons h₅ <| .cons h₆ .nil
  exact ⟨⟨uptime, average, median, late, longest, utilization⟩,
    ⟨huptime, haverage, hmedian, hlate, hlongest, hutilization⟩,
    read?_render hentries (List.cons_ne_nil _ _)⟩

theorem ofNat_inj {m n : Nat} : Numeral.ofNat m = Numeral.ofNat n ↔ m = n := by
  simp only [Numeral.ofNat, Numeral.mk.injEq, Decimal.mk.injEq, and_true, true_and]

/-- **The report on a snapshot is read back**: it is an object with twelve names, all of them for
numbers, and none of the counters has lost a digit. So snapshots with the same report have the same
counters. -/
theorem integers_read_back (s : Snapshot) :
    (∃ d : Derived, d.StandFor s ∧ read? s.report = some (value s d)) ∧
      ∀ t : Snapshot, t.report = s.report →
        t.scheduled = s.scheduled ∧ t.executed = s.executed ∧ t.canceled = s.canceled ∧
          t.discarded = s.discarded ∧ t.panicked = s.panicked ∧
          t.busyTime.toNat / 10 ^ 6 = s.busyTime.toNat / 10 ^ 6 := by
  refine ⟨exists_read?_report s, fun t h => ?_⟩
  obtain ⟨d, -, hs⟩ := exists_read?_report s
  obtain ⟨e, -, ht⟩ := exists_read?_report t
  -- the one text is read as both objects
  rw [h, hs, Option.some_inj] at ht
  simp only [value, Json.object.injEq, List.cons.injEq, Prod.mk.injEq, Json.number.injEq, true_and,
    ofNat_inj, UInt64.toNat_inj] at ht
  obtain ⟨-, hscheduled, hexecuted, hcanceled, hdiscarded, hpanicked, hbusy, -⟩ := ht
  exact ⟨hscheduled.symm, hexecuted.symm, hcanceled.symm, hdiscarded.symm, hpanicked.symm,
    hbusy.symm⟩

/-- The greatest counter, and two busy times of one full millisecond, as long as the uptime. -/
theorem integers_read_back_at_last :
    let s : Snapshot :=
      { uptime := .ofMillis 1, scheduled := 0xffffffffffffffff, busyTime := 1000000 }
    let t : Snapshot :=
      { uptime := .ofMillis 1, scheduled := 0xffffffffffffffff, busyTime := 1999999 }
    t.report = s.report ∧ t.scheduled = s.scheduled ∧
      t.busyTime.toNat / 10 ^ 6 = s.busyTime.toNat / 10 ^ 6 := by
  intro s t
  have hentries : entries t = entries s := by decide +kernel
  have hreport : t.report = s.report := congrArg (fun e => String.ofList (render e)) hentries
  obtain ⟨hscheduled, -, -, -, -, hbusy⟩ := (integers_read_back s).2 t hreport
  exact ⟨hreport, hscheduled, hbusy⟩

end Report

end Deferred
