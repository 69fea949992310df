import Mathlib.Data.List.Range
import Mathlib.Data.List.Nodup

namespace CacheBench.RequestReply

/-!
# A client and a server over two queues

Requests wait in one queue and replies in another; both deliver each message,
however long, once and in order.  Requests are numbered as they are sent, and a reply has the
number of the request it answers.  The numbers are not part of the messages:
they say which request a reply belongs to.
-/

/-- The messages under way, and the numbers of the replies received. -/
structure Link (Request Reply : Type) where
  toServer : List (Nat × Request)
  toClient : List (Nat × Reply)
  sent : Nat
  received : List Nat

namespace Link

variable {Request Reply : Type}

/-- Nothing was sent yet. -/
def empty : Link Request Reply where
  toServer := []
  toClient := []
  sent := 0
  received := []

/-- The client sends a request. -/
def send (link : Link Request Reply) (request : Request) :
    Link Request Reply :=
  { link with
    toServer := link.toServer ++ [(link.sent, request)]
    sent := link.sent + 1 }

/-- The server takes the oldest request and sends its reply. -/
inductive Served
    (link : Link Request Reply)
    (request : Request)
    (reply : Reply) :
    Link Request Reply → Prop where
  | intro
      {number : Nat}
      {rest : List (Nat × Request)}
      (oldest : link.toServer = (number, request) :: rest) :
      Served link request reply
        { link with
          toServer := rest
          toClient := link.toClient ++ [(number, reply)] }

/-- The client receives the oldest reply. -/
inductive Delivered
    (link : Link Request Reply)
    (reply : Reply) :
    Link Request Reply → Prop where
  | intro
      {number : Nat}
      {rest : List (Nat × Reply)}
      (oldest : link.toClient = (number, reply) :: rest) :
      Delivered link reply
        { link with
          toClient := rest
          received := link.received ++ [number] }

/-- The requests sent whose reply was not received. -/
def unanswered (link : Link Request Reply) : List Nat :=
  (List.range link.sent).filter fun number => number ∉ link.received

/--
Every request was answered, is being answered or waits, exactly once and in the
order the requests were sent.
-/
def InOrder (link : Link Request Reply) : Prop :=
  link.received ++
      (link.toClient.map Prod.fst ++ link.toServer.map Prod.fst) =
    List.range link.sent

theorem inOrder_empty :
    InOrder (empty : Link Request Reply) :=
  rfl

namespace InOrder

variable {link after : Link Request Reply}

theorem send
    (inOrder : link.InOrder)
    (request : Request) :
    (link.send request).InOrder := by
  unfold InOrder at inOrder ⊢
  rw [Link.send, List.map_append, List.range_succ, ← inOrder]
  simp

theorem served
    (inOrder : link.InOrder)
    {request : Request}
    {reply : Reply}
    (served : link.Served request reply after) :
    after.InOrder := by
  obtain ⟨oldest⟩ := served
  unfold InOrder at inOrder ⊢
  rw [← inOrder, oldest]
  simp

theorem delivered
    (inOrder : link.InOrder)
    {reply : Reply}
    (delivered : link.Delivered reply after) :
    after.InOrder := by
  obtain ⟨oldest⟩ := delivered
  unfold InOrder at inOrder ⊢
  rw [← inOrder, oldest]
  simp

/-- The requests without a received reply are those still under way. -/
theorem unanswered_eq
    (inOrder : link.InOrder) :
    link.unanswered =
      link.toClient.map Prod.fst ++ link.toServer.map Prod.fst := by
  have distinct : (List.range link.sent).Nodup := List.nodup_range
  unfold InOrder at inOrder
  rw [← inOrder, List.nodup_append] at distinct
  obtain ⟨-, -, apart⟩ := distinct
  rw [unanswered, ← inOrder, List.filter_append]
  have noneReceived :
      link.received.filter (fun number => number ∉ link.received) = [] := by
    simp
  have allUnderWay :
      (link.toClient.map Prod.fst ++ link.toServer.map Prod.fst).filter
          (fun number => number ∉ link.received) =
        link.toClient.map Prod.fst ++ link.toServer.map Prod.fst := by
    rw [List.filter_eq_self]
    intro number underWay
    rw [decide_eq_true_eq]
    intro wasReceived
    exact apart number wasReceived number underWay rfl
  rw [noneReceived, allUnderWay, List.nil_append]

/-- Each received reply answers one request. -/
theorem length_unanswered
    (inOrder : link.InOrder) :
    link.received.length + link.unanswered.length = link.sent := by
  have total := congrArg List.length inOrder
  rw [List.length_append, List.length_range] at total
  rw [inOrder.unanswered_eq]
  exact total

end InOrder

/--
The link when the client has sent the given requests and the server has sent
the given replies, of which the client has received as many as it has.
-/
structure Carries
    (link : Link Request Reply)
    (requests : List Request)
    (replies : List Reply) : Prop where
  waiting :
    link.toServer.map Prod.snd = requests.drop replies.length
  underWay :
    link.toClient.map Prod.snd = replies.drop link.received.length
  sent : link.sent = requests.length
  answered : replies.length ≤ requests.length
  received : link.received.length ≤ replies.length

theorem carries_empty :
    Carries (empty : Link Request Reply) [] [] where
  waiting := rfl
  underWay := rfl
  sent := rfl
  answered := Nat.le_refl 0
  received := Nat.le_refl 0

/-- An element at the head of what is left of a list. -/
theorem drop_eq_cons
    {α : Type}
    {items rest : List α}
    {item : α}
    {count : Nat}
    (shape : items.drop count = item :: rest) :
    items[count]? = some item ∧ items.drop (count + 1) = rest := by
  refine ⟨?_, ?_⟩
  · rw [← List.head?_drop, shape, List.head?_cons]
  · rw [← List.tail_drop, shape, List.tail_cons]

namespace Carries

variable {link after : Link Request Reply}
variable {requests : List Request} {replies : List Reply}

theorem send
    (carries : link.Carries requests replies)
    (request : Request) :
    (link.send request).Carries (requests ++ [request]) replies where
  waiting := by
    rw [List.drop_append_of_le_length carries.answered, ← carries.waiting]
    simp [Link.send]
  underWay := carries.underWay
  sent := by
    simp [Link.send, carries.sent]
  answered := by
    rw [List.length_append]
    exact Nat.le_add_right_of_le carries.answered
  received := carries.received

/-- The server answers the first request that has no reply yet. -/
theorem served
    (carries : link.Carries requests replies)
    {request : Request}
    {reply : Reply}
    (served : link.Served request reply after) :
    requests[replies.length]? = some request ∧
      after.Carries requests (replies ++ [reply]) := by
  obtain ⟨oldest⟩ := served
  have waiting := carries.waiting
  rw [oldest, List.map_cons] at waiting
  obtain ⟨isNext, others⟩ := drop_eq_cons waiting.symm
  refine ⟨isNext, ?_, ?_, carries.sent, ?_, ?_⟩
  · rw [List.length_append, List.length_singleton, others]
  · rw [List.map_append, carries.underWay,
      List.drop_append_of_le_length carries.received]
    rfl
  · rw [List.length_append, List.length_singleton]
    exact (List.getElem?_eq_some_iff.mp isNext).1
  · rw [List.length_append]
    exact Nat.le_add_right_of_le carries.received

/-- The client receives the first reply it has not received yet. -/
theorem delivered
    (carries : link.Carries requests replies)
    {reply : Reply}
    (delivered : link.Delivered reply after) :
    replies[link.received.length]? = some reply ∧
      after.received.length = link.received.length + 1 ∧
      after.Carries requests replies := by
  obtain ⟨oldest⟩ := delivered
  have underWay := carries.underWay
  rw [oldest, List.map_cons] at underWay
  obtain ⟨isNext, others⟩ := drop_eq_cons underWay.symm
  refine ⟨isNext, by simp, carries.waiting, ?_, carries.sent,
    carries.answered, ?_⟩
  · rw [List.length_append, List.length_singleton, others]
  · rw [List.length_append, List.length_singleton]
    exact (List.getElem?_eq_some_iff.mp isNext).1

end Carries

end Link

end CacheBench.RequestReply
