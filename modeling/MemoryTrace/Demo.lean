namespace MemoryTrace

/-- A script that comes with the program. -/
structure Demo where
  title : String
  source : String
  deriving Repr

namespace Demo

/-- Lines inside a class or a function. -/
def indented (lines : List String) : List String := lines.map ("    " ++ ·)

/-- A class with public members, and the empty line that sets it off. -/
def classLines (name : String) (members : List String) : List String :=
  [s!"class {name} \x7b", "public:"] ++ indented members ++ ["\x7d;", ""]

/-- A `main` with this body. -/
def mainLines (body : List String) : List String := ["int main() \x7b"] ++ indented body ++ ["\x7d"]

/-- The source of a demo starts with its title as a comment, and every line of it is ended. -/
def ofLines (title : String) (lines : List String) : Demo :=
  { title, source := String.join ((("// " ++ title) :: lines).map (· ++ "\n")) }

/-- The demos in the order of their numbers. Each shows one way to own memory or to lose it. -/
def all : List Demo :=
  [ofLines "Raw pointer: memory leak" <| mainLines
     ["int* ptr = new int;", "// no delete before returning", "return 0;"],
   ofLines "Raw pointer: proper delete" <| mainLines
     ["int* ptr = new int;", "delete ptr;", "return 0;"],
   ofLines "unique_ptr: automatic cleanup" <| mainLines
     ["std::unique_ptr<int> ptr = std::make_unique<int>();", "return 0;"],
   ofLines "shared_ptr: reference counting" <| mainLines
     ["std::shared_ptr<int> ptr1 = std::make_shared<int>();", "std::shared_ptr<int> ptr2 = ptr1;",
      "// two owners now share one block", "return 0;"],
   ofLines "Dangling pointer" <| mainLines
     ["int* ptr1 = new int;", "int* ptr2 = ptr1;", "delete ptr1;", "// ptr2 still names the freed block",
      "return 0;"],
   ofLines "Stack vs heap" <| mainLines
     ["int stackVar = 5;", "int* heapPtr = new int;", "delete heapPtr;", "return 0;"],
   ofLines "Basic class" <| classLines "Point" ["int x;", "int y;"] ++ mainLines
     ["Point p1;", "Point* p2 = new Point();", "delete p2;", "return 0;"],
   ofLines "Class with smart pointers" <| classLines "Player" ["int health;", "int mana;"] ++ mainLines
     ["Player p1;", "std::unique_ptr<Player> p2 = std::make_unique<Player>();",
      "std::shared_ptr<Player> p3 = std::make_shared<Player>();", "return 0;"],
   ofLines "Nested class" <| classLines "Vector" ["int x;", "int y;"] ++
     classLines "Entity" ["Vector position;", "int id;"] ++ mainLines ["Entity e;", "return 0;"]]

/-- Demos are numbered from 1. -/
def numbered? : Nat → Option Demo
  | 0 => none
  | n + 1 => all[n]?

end Demo

end MemoryTrace
