import RegexCompiler.Proofs.Truncation

/-!
# Handing tokens back

A reader may ask a scanner for the next token or hand it a token back, in any order and with
any token. Whether a request is refused, and what the others are answered, can be read off
the requests alone: a token waits from the request that handed it back until the next
delivery, and only a second token handed back meanwhile is refused.

The proof follows the requests from the first to the last. After each of them the token that
waits is the one the last request handed back, if it did, and with that token set aside the
scanner has ahead of it what a fresh scanner has after as many deliveries of its own. The
position in the pattern therefore does not depend on the tokens handed back.
-/

namespace RegexCompiler

/-! ### Requests -/

/-- What a reader may ask of a scanner. -/
inductive Request where
  | next
  | pushback (token : Token)
  deriving DecidableEq

namespace Scanner

/-- The answer to one request, a token for a delivery and none for a token handed back, and
the scanner after it. -/
def serve (scanner : Scanner) : Request → Except Misuse (Option Token × Scanner)
  | .next => .ok (some scanner.next.1, scanner.next.2)
  | .pushback token => (scanner.pushback token).map fun after => (none, after)

/-- The answers to requests in a row and the scanner after them, or the position of the first
request that is refused. -/
def serveAll (scanner : Scanner) :
    List Request → Except (Nat × Misuse) (List (Option Token) × Scanner)
  | [] => .ok ([], scanner)
  | request :: later =>
    match scanner.serve request with
    | .error misuse => .error (0, misuse)
    | .ok (answer, after) =>
      match after.serveAll later with
      | .error (index, misuse) => .error (index + 1, misuse)
      | .ok (answers, last) => .ok (answer :: answers, last)

/-- A request behind others is served where they leave the scanner, unless one of them is
refused. -/
theorem serveAll_concat (scanner : Scanner) (requests : List Request) (request : Request) :
    scanner.serveAll (requests ++ [request]) =
      match scanner.serveAll requests with
      | .error refusal => .error refusal
      | .ok (answers, after) =>
        match after.serve request with
        | .error misuse => .error (requests.length, misuse)
        | .ok (answer, last) => .ok (answers ++ [answer], last) := by
  induction requests generalizing scanner with
  | nil => rfl
  | cons first later inductionHypothesis =>
    rw [List.cons_append, serveAll, serveAll]
    rcases scanner.serve first with misuse | ⟨answer, between⟩
    · rfl
    · simp only [inductionHypothesis between]
      rcases between.serveAll later with refusal | ⟨answers, after⟩
      · rfl
      · dsimp only
        rcases after.serve request with misuse | ⟨last, final⟩ <;> rfl

end Scanner

/-! ### Which requests clash -/

/-- The request at a position hands a token back. -/
def HandsBack (requests : List Request) (index : Nat) : Prop :=
  ∃ token, requests[index]? = some (.pushback token)

/-- Before the request at a position, a token was handed back and has not been delivered. -/
def Waits (requests : List Request) (index : Nat) : Prop :=
  ∃ earlier < index, HandsBack requests earlier ∧
    ∀ between < index, earlier < between → requests[between]? ≠ some .next

/-- The request at a position hands a token back while another one waits. -/
def Clashes (requests : List Request) (index : Nat) : Prop :=
  HandsBack requests index ∧ Waits requests index

/-- The first position at which a token is handed back while another one waits. -/
def FirstClash (requests : List Request) (index : Nat) : Prop :=
  Clashes requests index ∧ ∀ earlier < index, ¬ Clashes requests earlier

/-- No token is ever handed back while another one waits. -/
def Orderly (requests : List Request) : Prop :=
  ∀ index < requests.length, ¬ Clashes requests index

instance (requests : List Request) (index : Nat) : Decidable (HandsBack requests index) :=
  match found : requests[index]? with
  | some (.pushback token) => .isTrue ⟨token, found⟩
  | some .next => .isFalse (by simp [HandsBack, found])
  | none => .isFalse (by simp [HandsBack, found])

instance (requests : List Request) (index : Nat) : Decidable (Waits requests index) :=
  inferInstanceAs (Decidable (∃ earlier < index, _))

instance (requests : List Request) (index : Nat) : Decidable (Clashes requests index) :=
  inferInstanceAs (Decidable (_ ∧ _))

instance (requests : List Request) (index : Nat) : Decidable (FirstClash requests index) :=
  inferInstanceAs (Decidable (_ ∧ _))

instance (requests : List Request) : Decidable (Orderly requests) :=
  inferInstanceAs (Decidable (∀ index < requests.length, _))

/-- The request at a position is a delivery that does not directly follow a token handed
back. -/
def Unprompted (requests : List Request) (index : Nat) : Prop :=
  requests[index]? = some .next ∧ ¬ (0 < index ∧ HandsBack requests (index - 1))

instance (requests : List Request) (index : Nat) : Decidable (Unprompted requests index) :=
  inferInstanceAs (Decidable (_ ∧ _))

/-- The positions of the deliveries that do not directly follow a token handed back. -/
def unprompted (requests : List Request) : List Nat :=
  (List.range requests.length).filter (Unprompted requests ·)

/-- Only a request that is there hands a token back. -/
theorem HandsBack.lt_length {requests : List Request} {index : Nat}
    (handsBack : HandsBack requests index) : index < requests.length := by
  obtain ⟨token, found⟩ := handsBack
  exact (List.getElem?_eq_some_iff.mp found).1

/-- A request behind others changes nothing about whether they hand tokens back. -/
theorem handsBack_concat {requests : List Request} {index : Nat}
    (inside : index < requests.length) (request : Request) :
    HandsBack (requests ++ [request]) index ↔ HandsBack requests index := by
  rw [HandsBack, HandsBack, List.getElem?_append_left inside]

/-- The last request hands a token back if it is such a request. -/
theorem handsBack_concat_length (requests : List Request) (request : Request) :
    HandsBack (requests ++ [request]) requests.length ↔ ∃ token, request = .pushback token := by
  simp [HandsBack]

/-- Before the first request no token waits. -/
theorem not_waits_zero (requests : List Request) : ¬ Waits requests 0 := by
  rintro ⟨earlier, before, _⟩
  exact Nat.not_lt_zero earlier before

/-- A token waits behind a request exactly if that request handed one back: a delivery would
have ended every wait. -/
theorem waits_succ {requests : List Request} {index : Nat} (inside : index < requests.length) :
    Waits requests (index + 1) ↔ HandsBack requests index := by
  constructor
  · rintro ⟨earlier, before, handsBack, kept⟩
    rcases Nat.lt_or_eq_of_le (Nat.le_of_lt_succ before) with strictly | rfl
    · have notNext := kept index (Nat.lt_succ_self index) strictly
      rw [List.getElem?_eq_getElem inside] at notNext
      cases found : requests[index] with
      | next => exact absurd (congrArg some found) notNext
      | pushback token => exact ⟨token, by rw [List.getElem?_eq_getElem inside, found]⟩
    · exact handsBack
  · intro handsBack
    refine ⟨index, Nat.lt_succ_self index, handsBack, ?_⟩
    intro between below above
    omega

/-- A request behind others changes nothing about whether they clash. -/
theorem clashes_concat {requests : List Request} {index : Nat}
    (inside : index < requests.length) (request : Request) :
    Clashes (requests ++ [request]) index ↔ Clashes requests index := by
  rw [Clashes, Clashes, handsBack_concat inside]
  refine and_congr_right fun _ => ?_
  cases index with
  | zero => exact iff_of_false (not_waits_zero _) (not_waits_zero _)
  | succ index =>
    rw [waits_succ (by rw [List.length_append]; omega), waits_succ (by omega),
      handsBack_concat (by omega)]

/-- A first clash is one for longer runs of requests as well. -/
theorem FirstClash.concat {requests : List Request} {index : Nat}
    (first : FirstClash requests index) (request : Request) :
    FirstClash (requests ++ [request]) index := by
  obtain ⟨clashes, none⟩ := first
  have inside := clashes.1.lt_length
  refine ⟨(clashes_concat inside request).mpr clashes, ?_⟩
  intro earlier before
  rw [clashes_concat (by omega)]
  exact none earlier before

/-- There is one first clash at most. -/
theorem FirstClash.unique {requests : List Request} {index other : Nat}
    (first : FirstClash requests index) (alsoFirst : FirstClash requests other) :
    index = other := by
  rcases Nat.lt_trichotomy index other with below | same | above
  · exact absurd first.1 (alsoFirst.2 index below)
  · exact same
  · exact absurd alsoFirst.1 (first.2 other above)

/-- Orderly requests stay orderly with a further request that does not clash. -/
theorem Orderly.concat {requests : List Request} (orderly : Orderly requests) {request : Request}
    (allowed : ¬ Clashes (requests ++ [request]) requests.length) :
    Orderly (requests ++ [request]) := by
  intro index inside
  rw [List.length_append, List.length_singleton] at inside
  rcases Nat.lt_or_eq_of_le (Nat.le_of_lt_succ inside) with before | rfl
  · rw [clashes_concat before]
    exact orderly index before
  · exact allowed

/-! ### The token that waits in the end -/

/-- The token that waits behind all the requests, which the last of them handed back. -/
def waiting (requests : List Request) : Option Token :=
  match requests.getLast? with
  | some (.pushback token) => some token
  | _ => none

/-- Behind a delivery no token waits. -/
@[simp] theorem waiting_concat_next (requests : List Request) :
    waiting (requests ++ [.next]) = none := by
  simp [waiting]

/-- Behind a token handed back that token waits. -/
@[simp] theorem waiting_concat_pushback (requests : List Request) (token : Token) :
    waiting (requests ++ [.pushback token]) = some token := by
  simp [waiting]

/-- A token waits in the end if it is what the last request hands back. -/
theorem waiting_eq_some_iff (requests : List Request) (token : Token) :
    waiting requests = some token ↔
      requests[requests.length - 1]? = some (.pushback token) := by
  rw [← List.getLast?_eq_getElem?, waiting]
  split <;> simp_all

/-- A token waits in the end if there is a last request and it hands one back. -/
theorem handsBack_last (requests : List Request) (request : Request) :
    (0 < requests.length ∧ HandsBack (requests ++ [request]) (requests.length - 1)) ↔
      ∃ token, waiting requests = some token := by
  simp only [waiting_eq_some_iff]
  constructor
  · rintro ⟨some, handsBack⟩
    exact (handsBack_concat (by omega) request).mp handsBack
  · intro handsBack
    have inside := HandsBack.lt_length handsBack
    exact ⟨by omega, (handsBack_concat inside request).mpr handsBack⟩

/-- A further request clashes if it hands a token back and one waits. -/
theorem clashes_concat_length (requests : List Request) (request : Request) :
    Clashes (requests ++ [request]) requests.length ↔
      (∃ token, request = .pushback token) ∧ ∃ token, waiting requests = some token := by
  rw [Clashes, handsBack_concat_length, ← handsBack_last requests request]
  refine and_congr_right fun _ => ?_
  cases counted : requests.length with
  | zero => exact iff_of_false (not_waits_zero _) (by simp)
  | succ count =>
    rw [waits_succ (by rw [List.length_append]; omega)]
    simp

/-- A request behind others is an unprompted delivery if it is a delivery and no token
waits. It changes nothing about the others. -/
theorem unprompted_concat (requests : List Request) (request : Request) :
    unprompted (requests ++ [request]) = unprompted requests ++
      if request = .next ∧ waiting requests = none then [requests.length] else [] := by
  have others : ∀ index ∈ List.range requests.length,
      decide (Unprompted (requests ++ [request]) index) = decide (Unprompted requests index) := by
    intro index member
    have inside := List.mem_range.mp member
    rw [decide_eq_decide, Unprompted, Unprompted, List.getElem?_append_left inside,
      handsBack_concat (by omega)]
  have last : Unprompted (requests ++ [request]) requests.length ↔
      request = .next ∧ waiting requests = none := by
    rw [Unprompted, handsBack_last, List.getElem?_concat_length, Option.some.injEq,
      ← Option.isSome_iff_exists, Option.not_isSome_iff_eq_none]
  rw [unprompted, List.length_append, List.length_singleton, List.range_succ, List.filter_append,
    List.filter_congr others, unprompted, List.filter_singleton]
  simp only [last, Bool.cond_decide]

/-- Only a request that is there is an unprompted delivery. -/
theorem lt_length_of_mem_unprompted {requests : List Request} {index : Nat}
    (member : index ∈ unprompted requests) : index < requests.length :=
  List.mem_range.mp (List.mem_filter.mp member).1

/-! ### What the answers are -/

/-- The answers to requests none of which is refused. A delivery right behind a token handed
back gives that token. The other deliveries give, one after another, what the scanner would
have delivered had no token been handed back. -/
structure Undisturbed (scanner : Scanner) (requests : List Request)
    (answers : List (Option Token)) : Prop where
  length_eq : answers.length = requests.length
  returned : ∀ index token, requests[index]? = some (.pushback token) →
    requests[index + 1]? = some .next → answers[index + 1]? = some (some token)
  fresh : ∀ call index, (unprompted requests)[call]? = some index →
    answers[index]? = some (some (scanner.delivery call))

/-- The answers stay undisturbed if a further delivery gives the token that waits or else the
next one that has not been delivered. -/
theorem Undisturbed.concat {scanner : Scanner} {requests : List Request}
    {answers : List (Option Token)} (undisturbed : Undisturbed scanner requests answers)
    {request : Request} {answer : Option Token}
    (delivered : request = .next → answer =
      some ((waiting requests).getD (scanner.delivery (unprompted requests).length))) :
    Undisturbed scanner (requests ++ [request]) (answers ++ [answer]) := by
  have same := undisturbed.length_eq
  refine ⟨by simp [same], ?_, ?_⟩
  · intro index token handsBack next
    have inside : index + 1 < requests.length + 1 := by
      simpa using (List.getElem?_eq_some_iff.mp next).1
    rw [List.getElem?_append_left (by omega)] at handsBack
    rcases Nat.lt_or_eq_of_le (Nat.le_of_lt_succ inside) with before | last
    · rw [List.getElem?_append_left before] at next
      rw [List.getElem?_append_left (by omega)]
      exact undisturbed.returned index token handsBack next
    · -- the further request comes right behind the token handed back
      have waits : waiting requests = some token := by
        rw [waiting_eq_some_iff, ← last, Nat.add_sub_cancel]
        exact handsBack
      rw [last, List.getElem?_concat_length] at next
      rw [last, ← same, List.getElem?_concat_length, delivered (Option.some.inj next), waits,
        Option.getD_some]
  · intro call index found
    rw [unprompted_concat] at found
    rcases Nat.lt_or_ge call (unprompted requests).length with earlier | last
    · rw [List.getElem?_append_left earlier] at found
      have inside := lt_length_of_mem_unprompted (List.mem_of_getElem? found)
      rw [List.getElem?_append_left (by omega)]
      exact undisturbed.fresh call index found
    · rw [List.getElem?_append_right last] at found
      split at found
      · rename_i unprompted
        obtain ⟨next, free⟩ := unprompted
        rw [List.getElem?_singleton] at found
        split at found
        · rename_i exactly
          obtain rfl : call = (RegexCompiler.unprompted requests).length := by omega
          rw [← Option.some.inj found, ← same, List.getElem?_concat_length, delivered next, free,
            Option.getD_none]
        · simp at found
      · simp at found

/-! ### Where the requests lead -/

namespace Scanner

/-- The scanner with the token that waits set aside. -/
def released (scanner : Scanner) : Scanner := ⟨scanner.rest, scanner.offset, none⟩

/-- A scanner without a token handed back has none to set aside. -/
theorem released_of_free {scanner : Scanner} (free : scanner.held = none) :
    scanner.released = scanner := by
  rw [released, ← free]

/-- A token handed back is delivered, and the position stays. -/
theorem next_of_held {scanner : Scanner} {token : Token} (held : scanner.held = some token) :
    scanner.next = (token, scanner.released) := by
  rw [next, held, released]

/-- Handing a token back is refused while one waits. -/
theorem serve_pushback_of_held {scanner : Scanner} {token : Token}
    (held : scanner.held = some token) (other : Token) :
    scanner.serve (.pushback other) = .error .slotTaken := by
  rw [serve, pushback, held]
  rfl

/-- Otherwise it is not, and the position stays. -/
theorem serve_pushback_of_free {scanner : Scanner} (free : scanner.held = none) (token : Token) :
    scanner.serve (.pushback token) = .ok (none, ⟨scanner.rest, scanner.offset, some token⟩) := by
  rw [serve, pushback, free]
  rfl

end Scanner

/-- Where requests none of which is refused leave a scanner. The token that waits is the one
the last request handed back, and with it set aside everything is ahead that the unprompted
deliveries have not used up. -/
structure Reached (scanner : Scanner) (requests : List Request) (after : Scanner) : Prop where
  held_eq : after.held = waiting requests
  ahead : ∀ call,
    after.released.delivery call = scanner.delivery ((unprompted requests).length + call)

namespace Reached

variable {scanner after : Scanner} {requests : List Request}

/-- Before the first request everything is ahead. -/
theorem nil (free : scanner.held = none) : Reached scanner [] scanner := by
  refine ⟨free, ?_⟩
  intro call
  rw [Scanner.released_of_free free]
  simp [unprompted]

/-- The next delivery gives the token that waits, or else the first one that has not been
delivered. -/
theorem next_token (reached : Reached scanner requests after) :
    after.next.1 = (waiting requests).getD (scanner.delivery (unprompted requests).length) := by
  rw [← reached.held_eq]
  cases held : after.held with
  | some token => rw [Scanner.next_of_held held, Option.getD_some]
  | none =>
    have ahead := reached.ahead 0
    rw [Scanner.released_of_free held, Scanner.delivery, Nat.add_zero] at ahead
    rw [ahead, Option.getD_none]

/-- A delivery uses up a token only if none waits. -/
theorem next (reached : Reached scanner requests after) :
    Reached scanner (requests ++ [.next]) after.next.2 := by
  refine ⟨by rw [after.next_held, waiting_concat_next], ?_⟩
  intro call
  rw [Scanner.released_of_free after.next_held, unprompted_concat, ← reached.held_eq]
  cases held : after.held with
  | some token =>
    rw [Scanner.next_of_held held, reached.ahead]
    simp
  | none =>
    have ahead := reached.ahead (call + 1)
    rw [Scanner.released_of_free held, Scanner.delivery] at ahead
    rw [ahead]
    simp only [and_self, if_true, List.length_append, List.length_singleton]
    congr 1
    omega

/-- A token handed back uses up nothing. -/
theorem pushback (reached : Reached scanner requests after) (token : Token) :
    Reached scanner (requests ++ [.pushback token]) ⟨after.rest, after.offset, some token⟩ := by
  refine ⟨by rw [waiting_concat_pushback], ?_⟩
  intro call
  rw [unprompted_concat, if_neg (by simp), List.append_nil]
  exact reached.ahead call

end Reached

/-- A further request either is refused, and hands a token back while one waits, or is
answered as it should be. -/
theorem Reached.serve {scanner after : Scanner} {requests : List Request}
    {answers : List (Option Token)} (reached : Reached scanner requests after)
    (undisturbed : Undisturbed scanner requests answers) (request : Request) :
    (after.serve request = .error .slotTaken ∧ Clashes (requests ++ [request]) requests.length) ∨
    ∃ answer last, after.serve request = .ok (answer, last) ∧
      ¬ Clashes (requests ++ [request]) requests.length ∧
      Undisturbed scanner (requests ++ [request]) (answers ++ [answer]) ∧
      Reached scanner (requests ++ [request]) last := by
  rw [clashes_concat_length, ← reached.held_eq]
  cases request with
  | next =>
    refine .inr ⟨some after.next.1, after.next.2, rfl, by simp, ?_, reached.next⟩
    refine undisturbed.concat fun _ => ?_
    rw [reached.next_token]
  | pushback token =>
    cases held : after.held with
    | some other => exact .inl ⟨after.serve_pushback_of_held held token, by simp⟩
    | none =>
      refine .inr ⟨none, _, after.serve_pushback_of_free held token, by simp, ?_,
        reached.pushback token⟩
      exact undisturbed.concat (by simp)

/-- A run of requests either stops at their first clash, or has none and is answered as it
should be. -/
theorem Scanner.serveAll_cases (scanner : Scanner) (free : scanner.held = none)
    (requests : List Request) :
    (∃ index, scanner.serveAll requests = .error (index, .slotTaken) ∧
      FirstClash requests index) ∨
    ∃ answers after, scanner.serveAll requests = .ok (answers, after) ∧ Orderly requests ∧
      Undisturbed scanner requests answers ∧ Reached scanner requests after := by
  -- the requests are taken off from behind, where the scanner they lead to is known
  induction requests using List.reverseRecOn with
  | nil =>
    refine .inr ⟨[], scanner, rfl, by simp [Orderly], ⟨rfl, by simp, ?_⟩, .nil free⟩
    simp [unprompted]
  | append_singleton requests request inductionHypothesis =>
    rw [serveAll_concat]
    rcases inductionHypothesis with ⟨index, refused, first⟩ |
      ⟨answers, after, served, orderly, undisturbed, reached⟩
    · exact .inl ⟨index, by rw [refused], first.concat request⟩
    · rw [served]
      rcases reached.serve undisturbed request with ⟨refused, clashes⟩ |
        ⟨answer, last, allowed, peaceful, undisturbed, reached⟩
      · refine .inl ⟨requests.length, by simp only [refused], clashes, ?_⟩
        intro earlier before
        rw [clashes_concat before]
        exact orderly earlier before
      · exact .inr ⟨answers ++ [answer], last, by simp only [allowed], orderly.concat peaceful,
          undisturbed, reached⟩

/-- The deliveries of a fresh scanner give tokens of the pattern up to some call, and from that
call on the end of input at one and the same place. -/
theorem delivery_endOfInput (pattern : String) : ∃ ending,
    (∀ call < ending, ((Scanner.ofPattern pattern).delivery call).kind ≠ .endOfInput) ∧
    ∀ call ≥ ending, (Scanner.ofPattern pattern).delivery call =
      .endOfInput (beforeNul pattern).utf8ByteSize := by
  refine ⟨(patternTokens pattern).length, ?_, ?_⟩
  · intro call before
    rw [delivery_ofPattern, List.getElem?_eq_getElem before, Option.getD_some]
    simpa using List.mem_takeWhile_imp (List.getElem_mem before)
  · intro call behind
    rw [delivery_ofPattern, List.getElem?_eq_none behind, Option.getD_none]

/-- Handing tokens back never disturbs the tokens of a pattern. A run of requests fails exactly
at the first token handed back while another one waits. Without such a request every delivery
right behind a token handed back gives that token, and the others give, in order, the first
tokens a fresh scanner delivers when none is handed back. These end in the same end of input
again and again. -/
theorem serveAll_undisturbed (pattern : String) (requests : List Request) :
    (∀ index, (Scanner.ofPattern pattern).serveAll requests = .error (index, .slotTaken) ↔
      FirstClash requests index) ∧
    (Orderly requests → ∃ answers after,
      (Scanner.ofPattern pattern).serveAll requests = .ok (answers, after) ∧
      Undisturbed (Scanner.ofPattern pattern) requests answers) ∧
    ∃ ending, (∀ call < ending, ((Scanner.ofPattern pattern).delivery call).kind ≠ .endOfInput) ∧
      ∀ call ≥ ending, (Scanner.ofPattern pattern).delivery call =
        .endOfInput (beforeNul pattern).utf8ByteSize := by
  refine ⟨?_, ?_, delivery_endOfInput pattern⟩
  all_goals rcases (Scanner.ofPattern pattern).serveAll_cases rfl requests with
    ⟨position, refused, first⟩ | ⟨answers, after, served, orderly, undisturbed, _⟩
  · intro index
    rw [refused]
    constructor
    · intro same
      cases same
      exact first
    · intro alsoFirst
      rw [first.unique alsoFirst]
  · intro index
    rw [served]
    refine iff_of_false (by simp) ?_
    intro first
    exact orderly index first.1.1.lt_length first.1
  · intro orderly
    exact absurd first.1 (orderly position first.1.1.lt_length)
  · intro _
    exact ⟨answers, after, served, undisturbed⟩

/-- Before a NUL, a token that is not of the pattern and an end of input from elsewhere are
handed back and delivered again, and the end of input of the pattern is still the one before
the NUL. Two tokens handed back in a row are refused at the second. -/
theorem serveAll_undisturbed_nul :
    (∃ answers after,
      (Scanner.ofPattern "a\x00b").serveAll [.next, .pushback ⟨.star, '*', ⟨7, 8⟩⟩, .next, .next,
        .pushback (.endOfInput 9), .next, .next] = .ok (answers, after) ∧
      answers[2]? = some (some ⟨.star, '*', ⟨7, 8⟩⟩) ∧
      answers[3]? = some (some (.endOfInput 1)) ∧
      answers[5]? = some (some (.endOfInput 9)) ∧
      answers[6]? = some (some (.endOfInput 1))) ∧
    (Scanner.ofPattern "a\x00b").serveAll [.next, .pushback (.endOfInput 9), .next,
      .pushback (.endOfInput 0), .pushback (.endOfInput 1), .pushback (.endOfInput 2)] =
      .error (4, .slotTaken) := by
  constructor
  · obtain ⟨_, answered, _⟩ := serveAll_undisturbed "a\x00b" [.next,
      .pushback ⟨.star, '*', ⟨7, 8⟩⟩, .next, .next, .pushback (.endOfInput 9), .next, .next]
    obtain ⟨answers, after, served, undisturbed⟩ := answered (by decide)
    refine ⟨answers, after, served, ?_, ?_, ?_, ?_⟩
    · exact undisturbed.returned 1 _ rfl rfl
    · exact undisturbed.fresh 1 3 (by decide)
    · exact undisturbed.returned 4 _ rfl rfl
    · exact undisturbed.fresh 2 6 (by decide)
  · exact ((serveAll_undisturbed "a\x00b" _).1 4).mpr (by decide)

end RegexCompiler
