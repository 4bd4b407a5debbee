/-!
# Roles

The architectural roles of files.  A role has the name under which it is
written, a heading, and the folder of the layered documentation to which files
of that role belong.
-/

namespace SourceAtlas

/-- The architectural role of a file. -/
inductive Role
  | controller
  | service
  | repository
  | entity
  | dto
  | configuration
  | handler
  | middleware
  | extension
  | migration
  | event
  | valueObject
  | command
  | query
  | validator
  | exception
  | utility
  | interface
  | abstraction
  | builder
  | dbContext
  /-- Declares types, but nothing tells a more specific role. -/
  | «class»
  | unknown
  deriving DecidableEq, Repr, Inhabited

namespace Role

def all : List Role :=
  [controller, service, repository, entity, dto, configuration, handler, middleware,
    extension, migration, event, valueObject, command, query, validator, exception,
    utility, interface, abstraction, builder, dbContext, .class, unknown]

def index (role : Role) : Nat :=
  all.idxOf role

instance : LT Role := ⟨fun first second => first.index < second.index⟩

instance : DecidableLT Role := fun first second =>
  inferInstanceAs (Decidable (first.index < second.index))

instance : Trans (· < · : Role → Role → Prop) (· < · : Role → Role → Prop)
    (· < · : Role → Role → Prop) :=
  ⟨fun hfirst hsecond => Nat.lt_trans hfirst hsecond⟩

def name : Role → String
  | controller => "controller"
  | service => "service"
  | repository => "repository"
  | entity => "entity"
  | dto => "dto"
  | configuration => "configuration"
  | handler => "handler"
  | middleware => "middleware"
  | extension => "extension"
  | migration => "migration"
  | event => "event"
  | valueObject => "value_object"
  | command => "command"
  | query => "query"
  | validator => "validator"
  | exception => "exception"
  | utility => "utility"
  | interface => "interface"
  | abstraction => "abstraction"
  | builder => "builder"
  | dbContext => "db_context"
  | .class => "class"
  | unknown => "unknown"

def label : Role → String
  | controller => "Controllers"
  | service => "Services"
  | repository => "Repositories"
  | entity => "Entities"
  | dto => "DTOs"
  | configuration => "Configurations"
  | handler => "Handlers"
  | middleware => "Middlewares"
  | extension => "Extensions"
  | migration => "Migrations"
  | event => "Events"
  | valueObject => "Value Objects"
  | command => "Commands"
  | query => "Queries"
  | validator => "Validators"
  | exception => "Exceptions"
  | utility => "Utilities"
  | interface => "Interfaces"
  | abstraction => "Abstractions"
  | builder => "Builders"
  | dbContext => "Database Contexts"
  | .class => "Classes"
  | unknown => "Other"

def folder : Role → String
  | controller => "api/controllers"
  | dto => "api/models"
  | middleware => "api/middlewares"
  | service => "application/services"
  | handler => "application/handlers"
  | command => "application/commands"
  | query => "application/queries"
  | validator => "application/validators"
  | entity => "domain/entities"
  | event => "domain/events"
  | valueObject => "domain/value-objects"
  | repository => "infrastructure/repositories"
  | configuration => "infrastructure/configurations"
  | migration => "infrastructure/migrations"
  | dbContext => "infrastructure/contexts"
  | extension => "shared/extensions"
  | exception => "shared/exceptions"
  | utility => "shared/utilities"
  | interface => "shared/interfaces"
  | abstraction => "shared/abstractions"
  | builder => "shared/builders"
  | .class => "other"
  | unknown => "other"

def ofName? (text : String) : Option Role :=
  all.find? (·.name = text)

end Role

end SourceAtlas
