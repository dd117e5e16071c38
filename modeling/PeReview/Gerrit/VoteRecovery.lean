import PeReview.Gerrit.Votes
import PeReview.Service.Voting

/-!
# A posted vote is found

The text of a vote ends with the identifier of its job, on a line of its own.  So among the
messages of the bot the vote of a job is found if and only if it is there, whatever Gerrit puts
before it and however it breaks the lines.
-/

namespace PeReview

open PeReview.Data

def voteLine (id : JobId) : List Char :=
  "[review-vote:".toList ++ (Nat.toDigits 10 id ++ [']'])

theorem toList_toString_nat (number : Nat) :
    (toString number).toList = Nat.toDigits 10 number := by
  rw [Nat.toString_eq_repr, Nat.repr_eq_ofList_toDigits, String.toList_ofList]

section Lines

variable {id other : JobId}

theorem voteLine_plain {char : Char} (member : char ∈ voteLine id) :
    isPythonSpace char = false := by
  unfold voteLine at member
  have label : "[review-vote:".toList =
      ['[', 'r', 'e', 'v', 'i', 'e', 'w', '-', 'v', 'o', 't', 'e', ':'] := by
    simp
  rw [label, List.mem_append, List.mem_append] at member
  rcases member with start | digits | last
  · have plain : ['[', 'r', 'e', 'v', 'i', 'e', 'w', '-', 'v', 'o', 't', 'e', ':'].all
        (fun char => !isPythonSpace char) = true := by
      decide
    simpa using List.all_eq_true.mp plain char start
  · have digit : char.isDigit = true :=
      Nat.isDigit_of_mem_toDigits (by decide) (by decide) digits
    have bounds : 48 ≤ char.toNat ∧ char.toNat ≤ 57 := by
      simpa [Char.isDigit, UInt32.le_iff_toNat_le] using digit
    simp [isPythonSpace]
    omega
  · rw [List.mem_singleton.mp last]
    decide

theorem voteLine_ne_nil : voteLine id ≠ [] := by
  unfold voteLine
  simp

theorem voteLine_noSpace : ' ' ∉ voteLine id := by
  intro member
  exact absurd (voteLine_plain member) (by decide)

/-- A line names one job. -/
theorem voteLine_inj (same : voteLine id = voteLine other) : id = other := by
  unfold voteLine at same
  have digits := List.append_cancel_right (List.append_cancel_left same)
  have first := Nat.ofDigitChars_ten_toDigits (n := id)
  have second := Nat.ofDigitChars_ten_toDigits (n := other)
  rw [digits] at first
  exact first.symm.trans second

end Lines

/-! ## What the worker posts -/

section Votes

variable {id other : JobId} {policy : ProjectReviewPolicy} {decision : VoteDecision}
  {review : ReviewResult} {tag : String} {vote sent : VoteInput}

def IsVoteOf (id : JobId) (vote : VoteInput) : Prop :=
  ∃ policy decision review tag, votePayload id policy decision review tag = some vote

/-- The line of a job, below a blank one. -/
theorem toList_voteLine (id : JobId) :
    (s!"\n\n[review-vote:{id}]").toList = '\n' :: '\n' :: voteLine id := by
  have digits : (toString id).toList = Nat.toDigits 10 id := toList_toString_nat id
  have label : "\n\n[review-vote:".toList = '\n' :: '\n' :: "[review-vote:".toList := by
    simp
  have close : "]".toList = [']'] := by simp
  change ("\n\n[review-vote:" ++ toString id ++ "]").toList = _
  rw [String.toList_append, String.toList_append, digits, label, close]
  unfold voteLine
  rw [List.append_assoc]
  rfl

theorem sentence_append {first second : String} {inner : List Char}
    (ends : second.toList = inner ++ ['.']) :
    (first ++ second).toList = first.toList ++ inner ++ ['.'] := by
  rw [String.toList_append, ends, List.append_assoc]

/-- A vote ends with the line of its job, behind a sentence. -/
theorem IsVoteOf.message (isVote : IsVoteOf id vote) :
    ∃ sentence, vote.message.toList = sentence ++ '.' :: '\n' :: '\n' :: voteLine id := by
  have below : ∀ {text : String} {sentence : List Char}, text.toList = sentence ++ ['.'] →
      (text ++ s!"\n\n[review-vote:{id}]").toList =
        sentence ++ '.' :: '\n' :: '\n' :: voteLine id := by
    intro text sentence ends
    rw [String.toList_append, ends, toList_voteLine, List.append_assoc]
    rfl
  have korean : " 사람의 코드 리뷰를 대체하지 않습니다.".toList =
      " 사람의 코드 리뷰를 대체하지 않습니다".toList ++ ['.'] := by
    simp
  have english : " This does not replace human code review.".toList =
      " This does not replace human code review".toList ++ ['.'] := by
    simp
  obtain ⟨policy, decision, review, tag, posted⟩ := isVote
  unfold votePayload at posted
  cases chosen : decision.value with
  | none =>
      rw [chosen] at posted
      cases posted
  | some value =>
      rw [chosen] at posted
      dsimp only at posted
      cases posted
      dsimp only
      by_cases language : policy.outputLanguage = "ko-KR"
      · rw [if_pos language]
        exact ⟨_, below (sentence_append korean)⟩
      · rw [if_neg language]
        exact ⟨_, below (sentence_append english)⟩

/-- The words of a vote of one job never end with those of a vote of another. -/
theorem IsVoteOf.job_unique {before text : List Char} (first : IsVoteOf id vote)
    (second : IsVoteOf other sent) (listed : words text = words (before ++ sent.message.toList))
    (ends : joinWords vote.message.toList <:+ joinWords text) : id = other := by
  obtain ⟨sentence, message⟩ := first.message
  obtain ⟨otherSentence, otherMessage⟩ := second.message
  have plain : isPythonSpace '.' = false := by decide
  have own : '.' :: ' ' :: voteLine id <:+ joinWords text := by
    refine List.IsSuffix.trans ?_ ends
    rw [message]
    exact joinWords_last sentence plain (fun _ => voteLine_plain) voteLine_ne_nil
  have foreign : '.' :: ' ' :: voteLine other <:+ joinWords text := by
    unfold joinWords
    rw [listed, otherMessage, ← List.append_assoc]
    exact joinWords_last (before ++ otherSentence) plain (fun _ => voteLine_plain) voteLine_ne_nil
  exact voteLine_inj (last_word_unique plain plain own foreign voteLine_noSpace voteLine_noSpace)

end Votes

/-! ## What Gerrit lists -/

section Messages

variable {detail message : Dict String Json} {messages : List Json} {wanted : VoteMarker}
  {target accountId patchsetNumber : Int} {observation : VoteObservation} {vote sent : VoteInput}
  {id : JobId} {found : Bool}

/-- A vote as Gerrit lists it: the text of the vote behind whatever Gerrit puts before it, with
its lines broken anyhow. -/
structure ListsVote (accountId patchsetNumber : Int) (vote : VoteInput)
    (message : Dict String Json) : Prop where
  author : ∃ author, Json.field message "author" = .object author ∧
    Json.field author "_account_id" = .int accountId
  revision : Json.field message "_revision_number" = .int patchsetNumber
  tag : Json.field message "tag" = .string vote.tag
  text : ∃ text before, Json.field message "message" = .string text ∧
    words text.toList = words (before ++ vote.message.toList)

/-- What the loop over the messages finds. -/
theorem VoteMarker.isIn_eq_ok (ran : wanted.isIn messages = .ok found) :
    found = true ↔ ∃ message, Json.object message ∈ messages ∧
      wanted.concerns message = true ∧ wanted.ends message = true := by
  induction messages generalizing found with
  | nil =>
      cases ran
      simp
  | cons item rest inductionHypothesis =>
      cases item with
      | object fields =>
          simp only [isIn, Json.fields?, Except.bind_eq_ok] at ran
          obtain ⟨later, remaining, returned⟩ := ran
          cases returned
          rw [Bool.or_eq_true, Bool.and_eq_true, inductionHypothesis remaining]
          constructor
          · rintro (⟨concerns, ends⟩ | ⟨message, member, known⟩)
            · exact ⟨fields, List.mem_cons_self, concerns, ends⟩
            · exact ⟨message, List.mem_cons_of_mem _ member, known⟩
          · rintro ⟨message, member, concerns, ends⟩
            rcases List.mem_cons.mp member with same | later
            · cases same
              exact Or.inl ⟨concerns, ends⟩
            · exact Or.inr ⟨message, later, concerns, ends⟩
      | _ => cases ran

theorem markerFound_eq (parsed : parseVoteObservation detail messages wanted target =
    .ok observation) : wanted.isIn messages = .ok observation.markerFound := by
  unfold parseVoteObservation at parsed
  simp only [Except.bind_eq_ok] at parsed
  obtain ⟨_, _, _, _, _, _, found, ran, returned⟩ := parsed
  cases returned
  exact ran

/-- A listed vote is found, whatever Gerrit puts before it. -/
theorem ListsVote.isFound (lists : ListsVote accountId patchsetNumber vote message) :
    VoteMarker.concerns { accountId, patchsetNumber, tag := vote.tag, marker := vote.message }
        message = true ∧
      VoteMarker.ends { accountId, patchsetNumber, tag := vote.tag, marker := vote.message }
        message = true := by
  obtain ⟨⟨author, isAuthor, account⟩, revision, tag, text, before, isText, same⟩ := lists
  constructor
  · unfold VoteMarker.concerns
    rw [isAuthor, revision, tag]
    simp [Json.fields?, account, Json.equalsInt, Json.text]
  · unfold VoteMarker.ends
    rw [isText]
    simp only [Json.text, Option.any_some, List.isSuffixOf_iff_suffix]
    unfold joinWords
    rw [same]
    exact joinWords_suffix before _

/-- Under the tag of a vote the bot posts nothing but votes.  Then the marker of the vote of a
job is found among the messages of a change if and only if that vote is among them. -/
theorem vote_found_iff (votes : JobId → Option VoteInput)
    (isVote : ∀ job sent, votes job = some sent → IsVoteOf job sent) (own : votes id = some vote)
    (posted : ∀ message, Json.object message ∈ messages →
      VoteMarker.concerns { accountId, patchsetNumber, tag := vote.tag, marker := vote.message }
          message = true →
        ∃ job sent, votes job = some sent ∧ ListsVote accountId patchsetNumber sent message)
    (parsed : parseVoteObservation detail messages
        { accountId, patchsetNumber, tag := vote.tag, marker := vote.message } target =
      .ok observation) :
    observation.markerFound = true ↔
      ∃ message, Json.object message ∈ messages ∧
        ListsVote accountId patchsetNumber vote message := by
  rw [VoteMarker.isIn_eq_ok (markerFound_eq parsed)]
  constructor
  · rintro ⟨message, member, concerns, ends⟩
    obtain ⟨job, sent, known, lists⟩ := posted message member concerns
    obtain ⟨text, before, isText, same⟩ := lists.text
    unfold VoteMarker.ends at ends
    rw [isText] at ends
    simp only [Json.text, Option.any_some, List.isSuffixOf_iff_suffix] at ends
    obtain rfl := (isVote id vote own).job_unique (isVote job sent known) same ends
    rw [own] at known
    cases known
    exact ⟨message, member, lists⟩
  · rintro ⟨message, member, lists⟩
    exact ⟨message, member, lists.isFound⟩

def cleanVote : VoteInput :=
  { message := "AI review vote: 0 validated finding(s) → Code-Review +1. " ++
      "This does not replace human code review.\n\n[review-vote:1]"
    tag := "t~vote~1"
    codeReview := 1 }

def listedVote : Dict String Json :=
  [("author", .object [("_account_id", .int 7)]), ("_revision_number", .int 2),
    ("tag", .string "t~vote~1"),
    ("message", .string ("Patch Set 2: Code-Review+1\n\n" ++ cleanVote.message))]

def listedRemark : Dict String Json :=
  [("author", .object [("_account_id", .int 9)]), ("_revision_number", .int 2),
    ("message", .string "Looks good")]

theorem isVoteOf_cleanVote : IsVoteOf 1 cleanVote :=
  ⟨{ outputLanguage := "en-US", boundAt := 0 },
    { value := some 1, reason := "zero_findings", findingCount := some 0 }, { summary := "s" },
    "t", by decide +kernel⟩

theorem listsVote_listedVote : ListsVote 7 2 cleanVote listedVote where
  author := ⟨_, rfl, rfl⟩
  revision := rfl
  tag := rfl
  text := by
    refine ⟨_, "Patch Set 2: Code-Review+1\n\n".toList, rfl, ?_⟩
    rw [String.toList_append]

/-- The vote is found behind the prefix of the server, beside the message of a person. -/
theorem vote_found_iff_listed :
    ∃ observation,
      parseVoteObservation [("labels", .object [("Code-Review", .object [])])]
          [.object listedRemark, .object listedVote]
          { accountId := 7, patchsetNumber := 2, tag := "t~vote~1", marker := cleanVote.message }
          1 = .ok observation ∧
        observation.markerFound = true := by
  let votes : JobId → Option VoteInput := fun job => if job = 1 then some cleanVote else none
  have parsed : ∃ observation,
      parseVoteObservation [("labels", .object [("Code-Review", .object [])])]
          [.object listedRemark, .object listedVote]
          { accountId := 7, patchsetNumber := 2, tag := cleanVote.tag, marker := cleanVote.message }
          1 = .ok observation :=
    ⟨_, rfl⟩
  obtain ⟨observation, parsed⟩ := parsed
  refine ⟨observation, parsed, ?_⟩
  have own : votes 1 = some cleanVote := rfl
  refine (vote_found_iff votes ?_ own ?_ parsed).mpr
    ⟨listedVote, List.mem_cons_of_mem _ List.mem_cons_self, listsVote_listedVote⟩
  · intro job sent known
    by_cases first : job = 1
    · subst first
      cases known
      exact isVoteOf_cleanVote
    · simp only [votes, if_neg first] at known
      cases known
  · intro message member concerns
    rcases List.mem_cons.mp member with same | later
    · cases same
      cases concerns
    · cases List.mem_singleton.mp later
      exact ⟨1, cleanVote, rfl, listsVote_listedVote⟩

end Messages

end PeReview
