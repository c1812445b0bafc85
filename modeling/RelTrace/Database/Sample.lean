import RelTrace.Database.Basic

/-!
# The sample database

The database that is there before any other is loaded: a small university.
-/

namespace RelTrace

namespace Database

/-- A row from its entries. -/
def sampleRow (entries : List (String × Value)) : Row := .ofList entries

/-- A whole number. -/
def whole (n : Nat) : Value := .number (.ofInt n)

/-- A person with a subject of study or of teaching. -/
def person (id : Nat) (name : String) (age : Nat) (field subject : String) : Row :=
  sampleRow [("id", whole id), ("name", .text name), ("age", whole age), (field, .text subject)]

/-- A course that a student takes. -/
def enrollment (student : Nat) (course grade : String) : Row :=
  sampleRow [("student_id", whole student), ("course", .text course), ("grade", .text grade)]

/-- The students of the sample. -/
def students : Relation :=
  [person 1 "Alice" 22 "major" "CS",
   person 2 "Bob" 28 "major" "Math",
   person 3 "Charlie" 25 "major" "CS",
   person 4 "Diana" 23 "major" "Physics",
   person 5 "Eve" 30 "major" "Math"]

/-- The teachers of the sample. -/
def teachers : Relation :=
  [person 101 "Prof. Smith" 45 "subject" "CS",
   person 102 "Prof. Jones" 38 "subject" "Math",
   person 103 "Alice" 22 "subject" "Physics"]

/-- The enrollments of the sample. -/
def enrollments : Relation :=
  [enrollment 1 "Database Systems" "A",
   enrollment 2 "Algorithms" "B",
   enrollment 3 "Database Systems" "A",
   enrollment 1 "Machine Learning" "B",
   enrollment 4 "Physics 101" "A"]

/-- The built-in database. -/
def sample : Database where
  name := "University"
  description? := some "Students, teachers and course enrollments"
  tables := .ofList [("Students", students), ("Teachers", teachers), ("Enrollments", enrollments)]
  examples :=
    ["π[name,age](Students)",
     "σ[age>25](Students)",
     "π[name](σ[age>25](Students))",
     "Students ∪ Teachers",
     "π[name](Students) ∪ π[name](Teachers)",
     "Students ⋈_\x7bid=student_id\x7d Enrollments",
     "π[name,course](Students ⋈_\x7bid=student_id\x7d Enrollments)"]
  diagram? := none

end Database

end RelTrace
